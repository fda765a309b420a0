import PeerProtocol.Network

/-!
# Finding the magic

The four magic bytes of a network mark where a frame begins in a stream that may hold anything
before them. The matcher remembers how many magic bytes the latest bytes are; a byte that does not
continue them can at most be the first byte of the next attempt, because no magic holds its first
byte twice.
-/

namespace PeerProtocol

/-- The outcome of looking for the magic in a buffer. -/
inductive MagicSearch where
  /-- The header begins at this index, right after the magic. -/
  | found (start : Nat)
  /-- There is no magic; the first `discard` bytes cannot belong to one. -/
  | absent (discard : Nat)
deriving DecidableEq, Repr

namespace MagicSearch

/-- How many bytes of the magic are matched after one more byte. -/
def advance (magic : Bytes) (matched : Nat) (byte : UInt8) : Nat :=
  if magic[matched]? = some byte then matched + 1
  else if magic.head? = some byte then 1
  else 0

/-- Looks on after `seen` bytes of which the last `matched` begin a magic. -/
def scan (magic : Bytes) : (matched seen : Nat) → Bytes → MagicSearch
  | matched, seen, [] => .absent (seen - matched)
  | matched, seen, byte :: rest =>
      let matched := advance magic matched byte
      if matched = magic.length then .found (seen + 1)
      else scan magic matched (seen + 1) rest

end MagicSearch

/-- Looks for a network's magic in a buffer. -/
def Network.seekMagic (network : Network) (buffer : Bytes) : MagicSearch :=
  MagicSearch.scan network.magic 0 0 buffer

end PeerProtocol
