import PeerProtocol.Encoding

/-!
# Kept bytes

`Encoding.Keeps` says that the bytes that are kept of a message, if any are, are its whole encoding
and are right in a sense that the message chooses. A message whose kept bytes and fields are right
contributes right bytes (`Keeps.of_contribution`), which are those that it is encoded as
(`contribution_of_serialize`); encoding leaves right bytes behind (`Keeps.serialize`) and gives the
same bytes ever after (`Keeps.serialize_again`).
-/

namespace PeerProtocol.Encoding

/-- The bytes that are kept are the whole encoding and are right. -/
def Keeps (encoding : Encoding) (right : Bytes → Prop) : Prop :=
  ∀ bytes, encoding.retained = some bytes → encoding.length = some bytes.length ∧ right bytes

/-- Kept bytes that are the whole encoding are current. -/
theorem current?_of_retained {encoding : Encoding} {bytes : Bytes}
    (hretained : encoding.retained = some bytes) (hlength : encoding.length = some bytes.length) :
    encoding.current? = some bytes := by
  unfold current?
  rw [hretained, Option.filter_some, if_pos]
  exact decide_eq_true hlength

/-- Current bytes are kept. -/
theorem retained_of_current? {encoding : Encoding} {bytes : Bytes}
    (h : encoding.current? = some bytes) : encoding.retained = some bytes := by
  unfold current? at h
  exact (Option.filter_eq_some_iff.1 h).1

/-- Where nothing is kept nothing is current. -/
theorem current?_of_uncached {encoding : Encoding} (h : encoding.retained = none) :
    encoding.current? = none := by
  unfold current?
  rw [h]
  rfl

/-- Where nothing is kept nothing is wrong. -/
theorem keeps_of_uncached {encoding : Encoding} (h : encoding.retained = none)
    (right : Bytes → Prop) : encoding.Keeps right := by
  intro bytes hbytes
  rw [h] at hbytes
  cases hbytes

/-- A change of the length after the kept bytes are dropped brings none back. -/
theorem retained_uncache_adjustLength (encoding : Encoding) (count : Nat) (delta : Option Int) :
    (encoding.uncache.adjustLength count delta).retained = none := by
  unfold adjustLength
  split <;> rfl

/-- Where the kept bytes are dropped and the length is changed, nothing is wrong. -/
theorem keeps_uncache_adjustLength (encoding : Encoding) (count : Nat) (delta : Option Int)
    (right : Bytes → Prop) : (encoding.uncache.adjustLength count delta).Keeps right :=
  keeps_of_uncached (retained_uncache_adjustLength encoding count delta) right

/-- Where the kept bytes are dropped upon a note, they are right if they are without one. -/
theorem keeps_of_noted {encoding : Encoding} {count : Nat} {delta : Option Int}
    {right : Bytes → Prop} {noted : Bool} (h : noted = false → encoding.Keeps right) :
    (if noted then encoding.uncache.adjustLength count delta else encoding).Keeps right := by
  cases noted with
  | true => exact keeps_uncache_adjustLength encoding count delta right
  | false => exact h rfl

/-- Bytes that were read are right if the part of the payload that was read is. -/
theorem keeps_parsed {dialect : Dialect} {payload : Bytes} {offset length : Nat}
    {right : Bytes → Prop} (hlength : ((payload.drop offset).take length).length = length)
    (hright : right ((payload.drop offset).take length)) :
    (parsed dialect payload offset length).Keeps right := by
  intro bytes hbytes
  unfold parsed at hbytes ⊢
  simp only at hbytes ⊢
  split at hbytes
  next =>
    obtain rfl := Option.some.inj hbytes
    exact ⟨congrArg some hlength.symm, hright⟩
  next => cases hbytes

/-- What is right in one sense is right in a weaker one. -/
theorem Keeps.mono {encoding : Encoding} {right weaker : Bytes → Prop} (h : encoding.Keeps right)
    (hweaker : ∀ bytes, right bytes → weaker bytes) : encoding.Keeps weaker := by
  intro bytes hbytes
  obtain ⟨hlength, hright⟩ := h bytes hbytes
  exact ⟨hlength, hweaker bytes hright⟩

/-- Remembering the same bytes twice is remembering them once. -/
theorem remember_remember (encoding : Encoding) (bytes : Bytes) :
    (encoding.remember bytes).remember bytes = encoding.remember bytes := by
  unfold remember
  by_cases hretain : encoding.dialect.retain = true
  · simp only [if_pos hretain]
  · simp only [if_neg hretain]

/-- Encoding does not change the dialect. -/
theorem serialize_dialect (encoding : Encoding) (fields : Except CodecError Bytes) :
    (encoding.serialize fields).2.dialect = encoding.dialect := by
  unfold serialize
  split
  next => rfl
  next =>
    split
    next => rfl
    next bytes =>
      split
      next => rfl
      next => rfl

section

variable {encoding : Encoding} {right : Bytes → Prop} {fields : Except CodecError Bytes}

/-- The contribution to a larger message is right. -/
theorem Keeps.of_contribution (h : encoding.Keeps right)
    (hfields : ∀ bytes, fields = .ok bytes → right bytes) {bytes : Bytes}
    (hbytes : encoding.contribution fields = .ok bytes) : right bytes := by
  unfold contribution at hbytes
  split at hbytes
  next kept hkept =>
    obtain rfl := Except.ok.inj hbytes
    exact (h kept (retained_of_current? hkept)).2
  next => exact hfields bytes hbytes

/-- What is kept is not current only where nothing is kept. -/
theorem Keeps.uncached (h : encoding.Keeps right) (hnone : encoding.current? = none) :
    encoding.retained = none := by
  cases hkept : encoding.retained with
  | none => rfl
  | some kept =>
    rw [current?_of_retained hkept (h kept hkept).1] at hnone
    cases hnone

/-- Encoded bytes are the current ones, or those of the fields, which are then remembered. -/
theorem serialize_eq_ok {bytes : Bytes} {after : Encoding}
    (h : encoding.serialize fields = (.ok bytes, after)) :
    (encoding.current? = some bytes ∧ after = encoding) ∨
      (encoding.current? = none ∧ fields = .ok bytes ∧ bytes.length ≤ maxMessageSize ∧
        after = encoding.remember bytes) := by
  unfold Encoding.serialize at h
  split at h
  next kept hkept =>
    obtain ⟨hbytes, rfl⟩ := Prod.mk.inj h
    obtain rfl := Except.ok.inj hbytes
    exact Or.inl ⟨hkept, rfl⟩
  next hnone =>
    split at h
    next => cases (Prod.mk.inj h).1
    next fresh =>
      split at h
      next => cases (Prod.mk.inj h).1
      next hsize =>
        obtain ⟨hbytes, rfl⟩ := Prod.mk.inj h
        obtain rfl := Except.ok.inj hbytes
        exact Or.inr ⟨hnone, rfl, Nat.le_of_not_lt hsize, rfl⟩

/-- A failure changes nothing. -/
theorem serialize_eq_error {error : CodecError} {after : Encoding}
    (h : encoding.serialize fields = (.error error, after)) : after = encoding := by
  unfold Encoding.serialize at h
  split at h
  next => cases (Prod.mk.inj h).1
  next =>
    split at h
    next => exact (Prod.mk.inj h).2.symm
    next =>
      split at h
      next => exact (Prod.mk.inj h).2.symm
      next => cases (Prod.mk.inj h).1

/-- What is encoded is what is contributed. -/
theorem contribution_of_serialize {bytes : Bytes} {after : Encoding}
    (h : encoding.serialize fields = (.ok bytes, after)) :
    encoding.contribution fields = .ok bytes := by
  unfold contribution
  rcases serialize_eq_ok h with ⟨hcurrent, -⟩ | ⟨hnone, hfields, -, -⟩
  · rw [hcurrent]
  · rw [hnone]
    exact hfields

/-- A message of which nothing was kept keeps at most the bytes that it remembers. -/
theorem keeps_remember {bytes : Bytes} (hretained : encoding.retained = none)
    (hright : right bytes) : (encoding.remember bytes).Keeps right := by
  intro kept hkept
  unfold remember at hkept ⊢
  simp only [hretained] at hkept ⊢
  split at hkept
  next =>
    obtain rfl := Option.some.inj hkept
    exact ⟨rfl, hright⟩
  next => cases hkept

/-- The bytes that are kept after encoding are right. -/
theorem Keeps.serialize (h : encoding.Keeps right)
    (hfields : ∀ bytes, fields = .ok bytes → right bytes) :
    (encoding.serialize fields).2.Keeps right := by
  unfold Encoding.serialize
  split
  next => exact h
  next hnone =>
    split
    next => exact h
    next bytes =>
      split
      next => exact h
      next => exact keeps_remember (h.uncached hnone) (hfields bytes rfl)

/-- Encoding once more gives the same bytes and changes nothing. -/
theorem Keeps.serialize_again (h : encoding.Keeps right) {bytes : Bytes} {after : Encoding}
    (hbytes : encoding.serialize fields = (.ok bytes, after)) :
    after.serialize fields = (.ok bytes, after) := by
  rcases serialize_eq_ok hbytes with ⟨hcurrent, rfl⟩ | ⟨hnone, rfl, hsize, rfl⟩
  · exact hbytes
  · have hretained := h.uncached hnone
    by_cases hretain : encoding.dialect.retain = true
    · have hcurrent : (encoding.remember bytes).current? = some bytes :=
        current?_of_retained (by rw [remember, if_pos hretain]) rfl
      unfold Encoding.serialize
      rw [hcurrent]
    · have hcurrent : (encoding.remember bytes).current? = none :=
        current?_of_uncached (by rw [remember, if_neg hretain, hretained])
      unfold Encoding.serialize
      rw [hcurrent]
      simp only [if_neg (Nat.not_lt.2 hsize), remember_remember]

end

/-! ## What was read -/

/-- The bytes that were read are current where they are retained. -/
theorem current?_parsed_of_retain {dialect : Dialect} {payload : Bytes} {offset length : Nat}
    (hretain : dialect.retain = true)
    (hlength : ((payload.drop offset).take length).length = length) :
    (parsed dialect payload offset length).current? = some ((payload.drop offset).take length) :=
  current?_of_retained (if_pos hretain) (congrArg some hlength.symm)

/-- The bytes that were read are encoded where they are retained, whatever the fields are. -/
theorem serialize_parsed_of_retain {dialect : Dialect} {payload : Bytes} {offset length : Nat}
    (hretain : dialect.retain = true)
    (hlength : ((payload.drop offset).take length).length = length)
    (fields : Except CodecError Bytes) :
    ((parsed dialect payload offset length).serialize fields).1 =
      .ok ((payload.drop offset).take length) := by
  unfold serialize
  rw [current?_parsed_of_retain hretain hlength]

/-- The bytes that were read are contributed where they are retained, whatever the fields are. -/
theorem contribution_parsed_of_retain {dialect : Dialect} {payload : Bytes} {offset length : Nat}
    (hretain : dialect.retain = true)
    (hlength : ((payload.drop offset).take length).length = length)
    (fields : Except CodecError Bytes) :
    (parsed dialect payload offset length).contribution fields =
      .ok ((payload.drop offset).take length) := by
  unfold contribution
  rw [current?_parsed_of_retain hretain hlength]

/-- Nothing that was read is kept where it is not retained. -/
theorem retained_parsed_of_not_retain {dialect : Dialect} (hretain : dialect.retain = false)
    (payload : Bytes) (offset length : Nat) :
    (parsed dialect payload offset length).retained = none :=
  if_neg (by rw [hretain]; exact Bool.false_ne_true)

end PeerProtocol.Encoding
