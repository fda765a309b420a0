import Mathlib.Algebra.GroupWithZero.Nat
import PeerProtocol.Proofs.Endpoint.Size

/-!
# Endpoints written again

An endpoint that was read is written again as the bytes that it was read from, but for numbers of
variable length: a reader accepts them in longer forms, and a writer takes the shortest. `Shortens`
compares what is written with what was read, and goes from the parts of a byte string to the whole.
In the plain layouts that is all of it (`encode_of_decode`); an endpoint that was read as tagged has
a host, and is written in as many bytes or fewer, exactly if its network is known
(`shortens_of_decodeTagged`).
-/

namespace PeerProtocol

open Bytes

/-! ## Shorter forms -/

/-- What is written is what was read if that has the shortest form, and otherwise has fewer
bytes. -/
def Shortens (shortest : Bool) (written read : Bytes) : Prop :=
  if shortest then written = read else written.length < read.length

/-- What has one form is written as it was read. -/
theorem shortens_refl (bytes : Bytes) : Shortens true bytes bytes := rfl

/-- Nothing is written in more bytes than it was read from. -/
theorem Shortens.length_le {shortest : Bool} {written read : Bytes}
    (h : Shortens shortest written read) : written.length ≤ read.length := by
  cases shortest with
  | true => exact Nat.le_of_eq (congrArg List.length h)
  | false => exact Nat.le_of_lt h

/-- What is written is what was read if and only if that has the shortest form. -/
theorem Shortens.eq_iff {shortest : Bool} {written read : Bytes}
    (h : Shortens shortest written read) : written = read ↔ shortest = true := by
  cases shortest with
  | true => exact iff_of_true h rfl
  | false =>
    refine iff_of_false ?_ Bool.false_ne_true
    rintro rfl
    exact Nat.lt_irrefl _ h

/-- Two parts have the shortest form if both do. -/
theorem Shortens.append {first second : Bool} {front back frontRead backRead : Bytes}
    (hfront : Shortens first front frontRead) (hback : Shortens second back backRead) :
    Shortens (first && second) (front ++ back) (frontRead ++ backRead) := by
  have hfrontLe := hfront.length_le
  have hbackLe := hback.length_le
  have hshorter (h : front.length < frontRead.length ∨ back.length < backRead.length) :
      (front ++ back).length < (frontRead ++ backRead).length := by
    simp only [List.length_append]
    omega
  cases first with
  | false => exact hshorter (Or.inl hfront)
  | true =>
    cases second with
    | false => exact hshorter (Or.inr hback)
    | true =>
      obtain rfl : front = frontRead := hfront
      obtain rfl : back = backRead := hback
      exact shortens_refl _

/-! ## Numbers -/

/-- A little-endian number is written as the bytes that it was read from. -/
theorem littleEndian_of_read {field : Field} {width value : Nat} {bytes rest : Bytes}
    (h : readLittleEndian field width bytes = .ok (value, rest)) :
    bytes = littleEndian width value ++ rest ∧ value < span width := by
  unfold readLittleEndian at h
  split at h
  next => cases h
  next front back hsplit =>
    obtain ⟨rfl, rfl⟩ := split?_eq_some_iff.1 hsplit
    obtain ⟨rfl, rfl⟩ := Prod.mk.inj (Except.ok.inj h)
    exact ⟨by rw [littleEndian_ofLittleEndian], ofLittleEndian_lt front⟩

/-- A big-endian number is written as the bytes that it was read from. -/
theorem bigEndian_of_read {field : Field} {width value : Nat} {bytes rest : Bytes}
    (h : readBigEndian field width bytes = .ok (value, rest)) :
    bytes = bigEndian width value ++ rest ∧ value < span width := by
  unfold readBigEndian at h
  split at h
  next => cases h
  next front back hsplit =>
    obtain ⟨rfl, rfl⟩ := split?_eq_some_iff.1 hsplit
    obtain ⟨rfl, rfl⟩ := Prod.mk.inj (Except.ok.inj h)
    have hbytes := littleEndian_ofLittleEndian front.reverse
    have hlt := ofLittleEndian_lt front.reverse
    rw [List.length_reverse] at hbytes hlt
    refine ⟨?_, hlt⟩
    rw [bigEndian, ofBigEndian, hbytes, List.reverse_reverse]

namespace CompactSize

/-- The number after a marker is written in its width as the bytes that it was read from. -/
theorem littleEndian_of_decodeFixed {field : Field} {width : Nat} (hwidth : span width ≤ 2 ^ 64)
    {value : UInt64} {bytes rest : Bytes} (h : decodeFixed field width bytes = .ok (value, rest)) :
    bytes = littleEndian width value.toNat ++ rest ∧ value.toNat < span width := by
  have hread : Reader.andThen (readLittleEndian field width)
      (fun value => Reader.ofValue (UInt64.ofNat value)) bytes = .ok (value, rest) := h
  obtain ⟨number, middle, hnumber, hvalue⟩ := Reader.andThen_eq_ok hread
  obtain ⟨rfl, rfl⟩ := Prod.mk.inj (Except.ok.inj hvalue)
  obtain ⟨hbytes, hlt⟩ := littleEndian_of_read hnumber
  have hsame : (UInt64.ofNat number).toNat = number := by
    rw [UInt64.toNat_ofNat']
    exact Nat.mod_eq_of_lt (by omega)
  rw [hsame]
  exact ⟨hbytes, hlt⟩

/-- A form that is the shortest or has more bytes is written as the shortest. -/
theorem shortens_of_form {bytes form rest : Bytes} {value : UInt64}
    (h : decode bytes = .ok (value, rest)) (hbytes : bytes = form ++ rest)
    (hform : encode value = form ∨ size value < form.length) :
    Shortens (isShortest bytes) (encode value) form := by
  have hshortest : isShortest bytes = decide (form.length = size value) := by
    unfold isShortest
    rw [h, hbytes, List.length_append, Bool.eq_iff_iff, beq_iff_eq, decide_eq_true_iff]
    exact Nat.add_right_cancel_iff
  rw [hshortest]
  rcases hform with hsame | hlonger
  · rw [decide_eq_true (by rw [← hsame, length_encode])]
    exact hsame
  · rw [decide_eq_false (by omega)]
    show (encode value).length < form.length
    rwa [length_encode]

/-- A number behind a marker has the shortest form or a longer one. -/
theorem shortens_of_marker {field : Field} {width : Nat} {marker : UInt8} {after rest : Bytes}
    {value : UInt64} (h : decode (marker :: after) = .ok (value, rest))
    (hread : decodeFixed field width after = .ok (value, rest)) (hwidth : span width ≤ 2 ^ 64)
    (hform : value.toNat < span width →
      encode value = marker :: littleEndian width value.toNat ∨ size value ≤ width) :
    ∃ form, marker :: after = form ++ rest ∧
      Shortens (isShortest (marker :: after)) (encode value) form := by
  obtain ⟨hafter, hlt⟩ := littleEndian_of_decodeFixed hwidth hread
  have hbytes : marker :: after = (marker :: littleEndian width value.toNat) ++ rest := by
    rw [hafter, List.cons_append]
  refine ⟨_, hbytes, shortens_of_form h hbytes ?_⟩
  rw [List.length_cons, length_littleEndian]
  exact (hform hlt).imp_right Nat.lt_succ_of_le

/-- A number is written in its shortest form, in whatever form it was read. -/
theorem shortens_of_decode {bytes rest : Bytes} {value : UInt64}
    (h : decode bytes = .ok (value, rest)) :
    ∃ form, bytes = form ++ rest ∧ Shortens (isShortest bytes) (encode value) form := by
  have hspan2 : span 2 = 0x10000 := by decide
  have hspan4 : span 4 = 0x100000000 := by decide
  cases bytes with
  | nil => cases h
  | cons marker after =>
    have hread := h
    rw [decode] at hread
    split at hread
    next hmarker =>
      refine shortens_of_marker h hread (by decide) fun hlt => ?_
      by_cases hsmall : value.toNat < 0xFD
      · right
        rw [size, if_pos hsmall]
        decide
      · left
        rw [encode, if_neg hsmall, if_pos (by omega), hmarker]
    next =>
      split at hread
      next hmarker =>
        refine shortens_of_marker h hread (by decide) fun hlt => ?_
        by_cases hsmall : value.toNat < 0x10000
        · right
          unfold size
          split <;> omega
        · left
          rw [encode, if_neg (by omega), if_neg hsmall, if_pos (by omega), hmarker]
      next =>
        split at hread
        next hmarker =>
          refine shortens_of_marker h hread (by decide) fun hlt => ?_
          by_cases hsmall : value.toNat < 0x100000000
          · right
            unfold size
            split
            · omega
            · split <;> omega
          · left
            rw [encode, if_neg (by omega), if_neg (by omega), if_neg hsmall, hmarker]
        next hfd hfe hff =>
          -- A byte that is no marker stands for itself.
          obtain ⟨rfl, rfl⟩ := Prod.mk.inj (Except.ok.inj hread)
          refine ⟨[marker], rfl, shortens_of_form h rfl (Or.inl ?_)⟩
          have hbyte := marker.toNat_lt
          have hvalue : (UInt64.ofNat marker.toNat).toNat = marker.toNat := by
            rw [UInt64.toNat_ofNat']
            omega
          have hother (other : UInt8) (h : ¬ marker = other) : marker.toNat ≠ other.toNat :=
            fun hsame => h (UInt8.toNat_inj.1 hsame)
          have hnotFd : marker.toNat ≠ 0xFD := hother 0xFD hfd
          have hnotFe : marker.toNat ≠ 0xFE := hother 0xFE hfe
          have hnotFf : marker.toNat ≠ 0xFF := hother 0xFF hff
          rw [encode, hvalue, if_pos (by omega), UInt8.ofNat_toNat]

end CompactSize

namespace Endpoint

/-! ## Fields -/

/-- A port is written as the bytes that it was read from. -/
theorem bigEndian_of_decodePort {port : UInt16} {bytes rest : Bytes}
    (h : decodePort bytes = .ok (port, rest)) : bytes = bigEndian 2 port.toNat ++ rest := by
  have hread : Reader.andThen (readBigEndian .port 2)
      (fun port => Reader.ofValue (UInt16.ofNat port)) bytes = .ok (port, rest) := h
  obtain ⟨number, middle, hnumber, hport⟩ := Reader.andThen_eq_ok hread
  obtain ⟨rfl, rfl⟩ := Prod.mk.inj (Except.ok.inj hport)
  obtain ⟨hbytes, hlt⟩ := bigEndian_of_read hnumber
  have hsame : (UInt16.ofNat number).toNat = number := by
    rw [UInt16.toNat_ofNat']
    exact Nat.mod_eq_of_lt hlt
  rw [hsame]
  exact hbytes

/-- A time is written as the bytes that it was read from. -/
theorem littleEndian_of_decodeTime {time : UInt32} {bytes rest : Bytes}
    (h : decodeTime bytes = .ok (time, rest)) : bytes = littleEndian 4 time.toNat ++ rest := by
  have hread : Reader.andThen (readLittleEndian .word32 4)
      (fun time => Reader.ofValue (UInt32.ofNat time)) bytes = .ok (time, rest) := h
  obtain ⟨number, middle, hnumber, htime⟩ := Reader.andThen_eq_ok hread
  obtain ⟨rfl, rfl⟩ := Prod.mk.inj (Except.ok.inj htime)
  obtain ⟨hbytes, hlt⟩ := littleEndian_of_read hnumber
  have hsame : (UInt32.ofNat number).toNat = number := by
    rw [UInt32.toNat_ofNat']
    exact Nat.mod_eq_of_lt hlt
  rw [hsame]
  exact hbytes

/-! ## Endpoints -/

/-- The plain fields are written as the bytes that they were read from. -/
theorem plainFields_of_decode {time : Option UInt32} {endpoint : Endpoint} {bytes rest : Bytes}
    (h : decodePlainFields time bytes = .ok (endpoint, rest)) :
    endpoint.time = time ∧ ∃ address, endpoint.hostPart Host.toOctets16 = .ok address ∧
      bytes = endpoint.plainFields address ++ rest := by
  rw [decodePlainFields_eq] at h
  obtain ⟨services, behindServices, hservices, h⟩ := Reader.andThen_eq_ok h
  obtain ⟨octets, behindOctets, hoctets, h⟩ := Reader.andThen_eq_ok h
  obtain ⟨port, behindPort, hport, h⟩ := Reader.andThen_eq_ok h
  obtain ⟨rfl, rfl⟩ := Prod.mk.inj (Except.ok.inj h)
  obtain ⟨hbytes, hlt⟩ := littleEndian_of_read hservices
  have hsame : (UInt64.ofNat services).toNat = services := by
    rw [UInt64.toNat_ofNat']
    exact Nat.mod_eq_of_lt hlt
  refine ⟨rfl, octets.bytes, ?_, ?_⟩
  · unfold hostPart
    simp only [Host.toOctets16_ofOctets16]
  · rw [hbytes, readOctets16_eq_ok hoctets, bigEndian_of_decodePort hport, plainFields, hsame]
    simp only [List.append_assoc]

/-- In the plain layouts an endpoint is written as the bytes that it was read from. -/
theorem encode_of_decode {layout : Layout} (hplain : layout ≠ .tagged) {endpoint : Endpoint}
    {bytes rest : Bytes} (h : decode layout bytes = .ok (endpoint, rest)) :
    ∃ front, bytes = front ++ rest ∧ endpoint.encode layout = .ok front := by
  cases layout with
  | embedded =>
    obtain ⟨-, address, haddress, hbytes⟩ := plainFields_of_decode h
    refine ⟨_, hbytes, ?_⟩
    rw [encode, haddress]
    rfl
  | timed =>
    have hread : Reader.andThen decodeTime (fun time => decodePlainFields (some time)) bytes =
        .ok (endpoint, rest) := h
    obtain ⟨time, behindTime, htime, hread⟩ := Reader.andThen_eq_ok hread
    obtain ⟨hsome, address, haddress, hbytes⟩ := plainFields_of_decode hread
    refine ⟨endpoint.timeBytes ++ endpoint.plainFields address, ?_, ?_⟩
    · rw [littleEndian_of_decodeTime htime, hbytes, timeBytes, hsome, Option.getD_some,
        List.append_assoc]
    · rw [encode, haddress]
      rfl
  | tagged => exact absurd rfl hplain

/-- The network of the tagged entry at the front of a byte string: the byte behind the time and the
services. -/
def networkId? (bytes : Bytes) : Option UInt8 :=
  match CompactSize.decode (bytes.drop 4) with
  | .ok (_, bytes) => bytes.head?
  | .error _ => none

/-- A tagged entry of a known network is written again with its numbers in their shortest form, and
one of an unknown network has no host. -/
theorem shortens_of_decodeTagged {endpoint : Endpoint} {bytes rest : Bytes}
    (h : decode .tagged bytes = .ok (endpoint, rest)) :
    ∃ networkId front, networkId? bytes = some networkId ∧ bytes = front ++ rest ∧
      if networkId ∈ Host.knownNetworks then
        ∃ written, endpoint.encode .tagged = .ok written ∧
          Shortens (isShortest .tagged bytes) written front
      else endpoint.host = none := by
  rw [decode, decodeTagged_eq] at h
  obtain ⟨time, behindTime, htime, h⟩ := Reader.andThen_eq_ok h
  obtain ⟨services, behindServices, hservices, h⟩ := Reader.andThen_eq_ok h
  obtain ⟨networkId, behindNetwork, hnetwork, h⟩ := Reader.andThen_eq_ok h
  obtain ⟨length, behindLength, hlength, h⟩ := Reader.andThen_eq_ok h
  obtain ⟨host, behindHost, hhost, h⟩ := Reader.andThen_eq_ok h
  obtain ⟨port, behindPort, hport, h⟩ := Reader.andThen_eq_ok h
  obtain ⟨rfl, rfl⟩ := Prod.mk.inj (Except.ok.inj h)
  obtain ⟨address, rfl, haddress, -, hmade⟩ := readEntryHost_eq_ok hhost
  obtain ⟨servicesForm, hservicesForm, hfirst⟩ := CompactSize.shortens_of_decode hservices
  obtain ⟨lengthForm, hlengthForm, hsecond⟩ := CompactSize.shortens_of_decode hlength
  have hbytes := littleEndian_of_decodeTime htime
  obtain ⟨hbehindServices, hid⟩ := littleEndian_of_read hnetwork
  have hbehindTime : bytes.drop 4 = behindTime := by
    rw [hbytes, List.drop_left' (length_littleEndian 4 _)]
  have hnetworkByte : littleEndian 1 networkId = [UInt8.ofNat networkId] := rfl
  have hbehindNetwork : behindServices.drop 1 = behindNetwork := by
    rw [hbehindServices, hnetworkByte, List.singleton_append, List.drop_one, List.tail_cons]
  have hshortest : isShortest .tagged bytes =
      (CompactSize.isShortest behindTime && CompactSize.isShortest behindNetwork) := by
    rw [isShortest, hbehindTime, hservices]
    simp only [hbehindNetwork]
  refine ⟨UInt8.ofNat networkId, littleEndian 4 time.toNat ++ servicesForm ++
    [UInt8.ofNat networkId] ++ lengthForm ++ address ++ bigEndian 2 port.toNat, ?_, ?_, ?_⟩
  · unfold networkId?
    rw [hbehindTime, hservices]
    simp only [hbehindServices, hnetworkByte, List.singleton_append, List.head?_cons]
  · rw [hbytes, hservicesForm, hbehindServices, hnetworkByte, hlengthForm,
      bigEndian_of_decodePort hport]
    simp only [List.append_assoc]
  · split
    next hknown =>
      obtain ⟨known, rfl, hentry⟩ := Host.toEntry_of_ofEntry hmade hknown
      have hsize : UInt64.ofNat address.length = length := by rw [haddress, UInt64.ofNat_toNat]
      have hpart : (Endpoint.mk (some known) port ⟨services⟩ (some time)).hostPart Host.toEntry =
          .ok (UInt8.ofNat networkId, address) := by
        unfold hostPart
        simp only [hentry]
      refine ⟨littleEndian 4 time.toNat ++ CompactSize.encode services ++
        [UInt8.ofNat networkId] ++ CompactSize.encode length ++ address ++
          bigEndian 2 port.toNat, ?_, ?_⟩
      · rw [encode, hpart, ← hsize]
        rfl
      · rw [hshortest]
        have hall := ((((shortens_refl (littleEndian 4 time.toNat)).append hfirst).append
          (shortens_refl [UInt8.ofNat networkId])).append hsecond).append
            (shortens_refl (address ++ bigEndian 2 port.toNat))
        simpa only [Bool.true_and, Bool.and_true, List.append_assoc] using hall
    next hunknown =>
      rw [Host.ofEntry_unknown hunknown] at hmade
      exact (Except.ok.inj hmade).symm

/-- In every layout an endpoint is written as the bytes that it was read from if its numbers stood
there in their shortest form, and otherwise in fewer bytes, if it can be written at all. -/
theorem shortens_of_decode {layout : Layout} {endpoint : Endpoint} {bytes rest : Bytes}
    (h : decode layout bytes = .ok (endpoint, rest)) :
    ∃ front, bytes = front ++ rest ∧ ∀ written, endpoint.encode layout = .ok written →
      Shortens (isShortest layout bytes) written front := by
  by_cases hlayout : layout = .tagged
  · subst hlayout
    obtain ⟨networkId, front, -, hbytes, hwritten⟩ := shortens_of_decodeTagged h
    refine ⟨front, hbytes, fun written hencode => ?_⟩
    split at hwritten
    next =>
      obtain ⟨other, hother, hshortens⟩ := hwritten
      obtain rfl := Except.ok.inj (hother.symm.trans hencode)
      exact hshortens
    next =>
      rw [encode, hostPart, hwritten] at hencode
      cases hencode
  · obtain ⟨front, hbytes, hfront⟩ := encode_of_decode hlayout h
    have hshortest : isShortest layout bytes = true := by
      cases layout with
      | tagged => exact absurd rfl hlayout
      | _ => rfl
    refine ⟨front, hbytes, fun written hencode => ?_⟩
    obtain rfl := Except.ok.inj (hfront.symm.trans hencode)
    rw [hshortest]
    exact shortens_refl _

end Endpoint

end PeerProtocol
