import PeerProtocol.Proofs.Peer.Outlook

/-!
# What a peer writes

A peer writes nothing but pongs. So whatever is true of its write target and stays true when a pong
is written to it is true after the peer was offered bytes, also where that ended in an error
(`receive_target`).
-/

namespace PeerProtocol.Peer

variable {σ : Type} [WriteTarget σ] {holds : σ → Prop} {dialect : Dialect}

/-- Answering a message writes a pong at most. -/
theorem answer_target
    (hpong : ∀ target nonce, holds target →
      holds (WriteTarget.write target (pongFrame dialect nonce)).2)
    {peer : Peer} (hdialect : peer.dialect = dialect) {target : σ} (h : holds target)
    (message : Message) :
    ∃ reached, (peer.answer (some target) message).2 = some reached ∧ holds reached := by
  rw [answer_some]
  cases message.asked? with
  | none => exact ⟨target, rfl, h⟩
  | some nonce =>
    rw [hdialect]
    exact ⟨_, rfl, hpong target nonce h⟩

/-- Being offered bytes makes a peer write nothing but pongs. -/
theorem receive_target (holds : σ → Prop)
    (hpong : ∀ target nonce, holds target →
      holds (WriteTarget.write target (pongFrame dialect nonce)).2)
    {peer : Peer} (hdialect : peer.dialect = dialect) {target : σ} (h : holds target)
    (bytes : Bytes) :
    ∃ reached, (peer.receive (some target) bytes).target = some reached ∧ holds reached := by
  have hdecoded {peer next : Peer} {bytes rest : Bytes} {message : Message}
      (hlook : peer.look bytes = .decodes message next rest) (hdialect : peer.dialect = dialect) :
      next.dialect = dialect := by
    have hfinds := finds_look peer bytes
    rw [hlook] at hfinds
    cases hfinds with
    | decodes hqueued hrest houtlook => exact hqueued.dialect.trans hdialect
  -- The target is a slot along the induction, which stays filled.
  suffices hall : ∀ slot : Option σ, slot = some target →
      ∃ reached, (peer.receive slot bytes).target = some reached ∧ holds reached from
    hall (some target) rfl
  intro slot
  induction peer, slot, bytes using receive_induction generalizing target with
  | waits hlook => exact fun hslot => ⟨target, hslot, h⟩
  | breaks hlook => exact fun hslot => ⟨target, hslot, h⟩
  | @unanswered peer next slot reached bytes rest message error hlook hanswer =>
    rintro rfl
    have hreached := answer_target hpong (hdecoded hlook hdialect) h message
    rw [hanswer] at hreached
    exact hreached
  | @unqueued peer next last slot reached bytes rest message error hlook hanswer hdeliver =>
    rintro rfl
    have hreached := answer_target hpong (hdecoded hlook hdialect) h message
    rw [hanswer] at hreached
    exact hreached
  | @queued peer next last slot reached bytes rest message hlook hanswer hdeliver ih =>
    rintro rfl
    have hnext := hdecoded hlook hdialect
    have hreached := answer_target hpong hnext h message
    rw [hanswer] at hreached
    obtain ⟨after, hafter, hholds⟩ := hreached
    obtain ⟨rfl, -, -⟩ := deliver_eq_ok hdeliver
    exact ih hnext hholds hafter

end PeerProtocol.Peer
