import PeerProtocol.Connection

/-!
# Puppets

A puppet is a collaborator that reacts to its calls as it is told, and notes them. Whatever a
collaborator does in a call, it uses its outbox and answers, so for every collaborator there is a
puppet that was told to do the same; and what a puppet has noted is what any collaborator in its
place would have noticed.
-/

namespace PeerProtocol

/-- A callback that the collaborator of a connection received. -/
inductive Callback where
  | attached
  | opened
  | received
  | ended
deriving DecidableEq, Repr

/-- What is noticed of a requested connection: its collaborator is called, or its requester learns
how the request turned out. -/
inductive Notice where
  | call (callback : Callback)
  | resolved (result : Except LinkError Unit)

namespace Notice

/-- The callback that is noticed, if it is one. -/
def callback? : Notice → Option Callback
  | call callback => some callback
  | resolved _ => none

/-- The result that is noticed, if it is one. -/
def result? : Notice → Option (Except LinkError Unit)
  | call _ => none
  | resolved result => some result

end Notice

namespace Outbox

/-- What a collaborator, or whoever else holds an outbox, may do with it. -/
inductive Use where
  | write (bytes : Bytes)
  | requestClose
deriving DecidableEq, Repr

/-- The outbox after it was used. -/
def use (outbox : Outbox) : Use → Outbox
  | .write bytes => (outbox.write bytes).2
  | .requestClose => outbox.requestClose

end Outbox

/-- What a collaborator does when it is called: how it uses its outbox, and how it answers to bytes
that it is offered. -/
structure Reaction where
  uses : List Outbox.Use
  answer : Except LinkError Nat

/-- A collaborator that was told how to react to its next call, and what has been noticed of its
connection so far. -/
structure Puppet where
  maxMessageSize : Nat
  reaction : Reaction
  history : List Notice

namespace Puppet

/-- A puppet of which nothing has been noticed. -/
def new (maxMessageSize : Nat) : Puppet := ⟨maxMessageSize, ⟨[], .ok 0⟩, []⟩

/-- The puppet after something was noticed. -/
def note (puppet : Puppet) (notice : Notice) : Puppet :=
  { puppet with history := puppet.history ++ [notice] }

/-- The puppet after it was told how to react. -/
def told (puppet : Puppet) (reaction : Reaction) : Puppet :=
  { puppet with reaction := reaction }

end Puppet

instance : Collaborator Puppet where
  maxMessageSize := Puppet.maxMessageSize
  attached puppet := puppet.note (.call .attached)
  opened puppet outbox :=
    (puppet.note (.call .opened), puppet.reaction.uses.foldl Outbox.use outbox)
  receive puppet outbox _ :=
    (puppet.reaction.answer, puppet.note (.call .received),
      puppet.reaction.uses.foldl Outbox.use outbox)
  ended puppet := puppet.note (.call .ended)

end PeerProtocol
