import Serval.Sal.Backlog
import Serval.Sal.Requests

/-!
# What a listener survives

A packet leaves a listener in place if the call returns at all and the packet
is no reset. The listener itself sends a response or a reset, and runs out of
head room for it when the source extension of the request is too long.
-/

namespace Serval

open Serval.Support

/-- Every packet to the service `srvid` is sent or refused: the table has no
rule for it that `serval_sal_transmit_skb` does not get over. -/
def Deliverable (env : SalEnv) (table : ServiceTable) (srvid : Vector UInt8 32) : Prop :=
  ∀ (host : SalHost) (skb : CtrlSkb) (useCopy : Bool), host.table = table →
    host.sk.peerSrvid = srvid → ∃ result, servalSalTransmitSkb env host skb useCopy = .ok result

section

variable {env : SalEnv} {table : ServiceTable} {srvid : Vector UInt8 32} {host : SalHost}

theorem Deliverable.sent (deliverable : Deliverable env table srvid) (here : host.table = table)
    (peer : host.sk.peerSrvid = srvid) (skb : CtrlSkb) (useCopy : Bool) :
    ∃ err host', servalSalTransmitSkb env host skb useCopy = .ok (err, host') ∧
      host'.table = table ∧ host'.sk.peerSrvid = srvid := by
  obtain ⟨⟨err, host'⟩, run⟩ := deliverable host skb useCopy here peer
  obtain ⟨_, _, _, _, rfl, -⟩ := servalSalTransmitSkb_sends run
  exact ⟨err, _, run, here, peer⟩

end

/-! ## The call of a listener -/

/-- Head room for the answer that the listener gives on its own: the response
to a request that waits or that it takes, or the reset. -/
structure AnswerFits (env : SalEnv) (host : SalHost) (skb : RcvSkb) : Prop where
  repeated : skb.hdr.hasSyn = true → skb.hdr.hasAck = false →
    servalSalFindRsk host.sk skb.hdr ≠ none → SynackFits env host.tick skb.hdr
  taken : AcceptableSyn env host skb → ¬ host.sk.maxAckBacklog ≤ host.sk.ackBacklog →
    SynackFits env (host.tick + 1) skb.hdr
  reset : skb.hdr.hasSyn = false → skb.hdr.hasAck = false → env.alloc host.tick = true →
    32 + ipHdrSize ≤ (env.headroom host.tick).length

/-- The services that the call may send to besides: that of the peer, if the
socket began to migrate before it listened, and that of the client whose
request becomes a connection. -/
structure Delivers (env : SalEnv) (host : SalHost) (skb : RcvSkb) : Prop where
  migration : host.sk.salState ≠ .initial → Deliverable env host.table host.sk.peerSrvid
  connection : ∀ rsk, matchRequest host.sk skb.hdr = some rsk →
    Deliverable env host.table rsk.peerSrvid

section

variable {env : SalEnv} {host : SalHost} {skb : RcvSkb}

/-- An acknowledgement is not answered by the listener itself. -/
theorem AnswerFits.of_ack (ack : skb.hdr.hasAck = true) : AnswerFits env host skb := by
  have other : ¬ skb.hdr.hasAck = false := by rw [ack]; decide
  exact ⟨fun _ no => absurd no other, fun taken => absurd taken.noAck other,
    fun _ no => absurd no other⟩

end

end Serval
