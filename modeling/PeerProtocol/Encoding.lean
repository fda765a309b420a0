import PeerProtocol.CompactSize
import PeerProtocol.Dialect

/-!
# What is known of a message's encoding

Every message carries its dialect, the bytes of its encoding while they are known to be current,
and the length that the encoding has or will have. A change of the message drops the bytes; the
length is kept up to date by whoever makes the change, or becomes unknown.
-/

namespace PeerProtocol

/-- The largest payload that may be sent or received: 32 MiB. -/
def maxMessageSize : Nat := 0x02000000

/-- The dialect of a message and what is known of its encoding. -/
structure Encoding where
  dialect : Dialect
  retained : Option Bytes
  length : Option Nat
deriving DecidableEq

namespace Encoding

/-- Of a message that was just built: no bytes yet. -/
def fresh (dialect : Dialect) (length : Option Nat) : Encoding :=
  ⟨dialect, none, length⟩

/-- Of a message that was read from `length` bytes of a payload at an offset. The bytes are kept
only where the dialect retains them. -/
def parsed (dialect : Dialect) (payload : Bytes) (offset length : Nat) : Encoding :=
  ⟨dialect, if dialect.retain then some ((payload.drop offset).take length) else none, some length⟩

/-- Whether bytes are kept. -/
def isCached (encoding : Encoding) : Bool :=
  encoding.retained.isSome

/-- The kept bytes, where they are the whole encoding. -/
def current? (encoding : Encoding) : Option Bytes :=
  encoding.retained.filter fun bytes => encoding.length = some bytes.length

/-- Drops the kept bytes. -/
def uncache (encoding : Encoding) : Encoding :=
  { encoding with retained := none }

/-- Another dialect. -/
def setDialect (encoding : Encoding) (dialect : Dialect) : Encoding :=
  { encoding with dialect := dialect }

/-- Another length, or that the length is unknown. -/
def setLength (encoding : Encoding) (length : Option Nat) : Encoding :=
  { encoding with length := length }

/-- The growth of a count prefix when the count reaches `count` from one less. -/
def countGrowth (count : Nat) : Int :=
  if count = 0 then 0
  else (CompactSize.size (UInt64.ofNat count) : Int) - CompactSize.size (UInt64.ofNat (count - 1))

/-- The length that a 64-bit word with a sign stands for, if the word of `value` is not negative.
Lengths are counted in such words, so a sum that leaves their range wraps around. -/
def wordLength? (value : Int) : Option Nat :=
  let word := value.bmod 0x10000000000000000
  if word < 0 then none else some word.toNat

/-- A value in the range of the words is its own word. -/
theorem wordLength?_of_range {value : Int} (hlower : -0x8000000000000000 ≤ value)
    (hupper : value < 0x8000000000000000) :
    wordLength? value = if value < 0 then none else some value.toNat := by
  have hword : value.bmod 0x10000000000000000 = value := Int.bmod_eq_of_le (by omega) (by omega)
  simp only [wordLength?, hword]

/-- The length after a list changed by `delta` bytes of entries and, if `count` is not zero, grew
to that many entries. A change by an unknown number of bytes makes the length unknown, and an
unknown length stays unknown. -/
def adjustLength (encoding : Encoding) (count : Nat) (delta : Option Int) : Encoding :=
  match encoding.length, delta with
  | none, _ => encoding
  | some _, none => encoding.setLength none
  | some length, some delta =>
      encoding.setLength (wordLength? ((length : Int) + delta + countGrowth count))

/-- After the message was encoded as these bytes. -/
def remember (encoding : Encoding) (bytes : Bytes) : Encoding :=
  { encoding with
    length := some bytes.length
    retained := if encoding.dialect.retain then some bytes else encoding.retained }

/-- The bytes of a message whose fields encode as `fields`: those that are kept, else the fresh
ones, unless they are above the cap. A failure changes nothing. -/
@[macro_inline] def serialize (encoding : Encoding) (fields : Except CodecError Bytes) :
    Except CodecError Bytes × Encoding :=
  match encoding.current? with
  | some bytes => (.ok bytes, encoding)
  | none =>
    match fields with
    | .error error => (.error error, encoding)
    | .ok bytes =>
      if maxMessageSize < bytes.length then (.error (.messageTooLarge bytes.length), encoding)
      else (.ok bytes, encoding.remember bytes)

/-- The bytes that a message contributes to a larger one: those that are kept, else the fields. -/
@[macro_inline] def contribution (encoding : Encoding) (fields : Except CodecError Bytes) :
    Except CodecError Bytes :=
  match encoding.current? with
  | some bytes => .ok bytes
  | none => fields

end Encoding

end PeerProtocol
