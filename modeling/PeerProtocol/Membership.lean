/-!
# Membership in a list

An address that stands in a list names the list as its owner and notes when it changes, so that
the list learns that its own bytes are stale. The note reaches only the list that owns the
address when it looks.
-/

namespace PeerProtocol

/-- The identity of an address list. Two lists never share one. -/
structure ListId where
  number : Nat
deriving DecidableEq, Repr

namespace ListId

/-- The identity that follows in order of creation. -/
def next (id : ListId) : ListId := ⟨id.number + 1⟩

end ListId

/-- The owner of an address and whether the owner's bytes are stale because of it. -/
structure Membership where
  owner : Option ListId
  stale : Bool
deriving DecidableEq, Repr

namespace Membership

/-- Of an address that stands in no list. -/
def free : Membership := ⟨none, false⟩

/-- Of an address that was read as part of a list. -/
def ownedBy (owner : ListId) : Membership := ⟨some owner, false⟩

/-- Makes a list the owner; notes for an earlier one are void. -/
def attach (_ : Membership) (owner : ListId) : Membership := ⟨some owner, false⟩

/-- Takes the address out of its list. -/
def detach (_ : Membership) : Membership := ⟨none, false⟩

/-- Notes a change for the owner, if there is one. -/
def markChanged (membership : Membership) : Membership :=
  if membership.owner.isSome then { membership with stale := true } else membership

/-- Whether a change was noted for `owner`, and the membership without the note. -/
def takeChange (membership : Membership) (owner : ListId) : Bool × Membership :=
  (membership.stale && membership.owner == some owner, { membership with stale := false })

end Membership

end PeerProtocol
