import Serval.Sal.State

/-!
# Listeners

A listener is known to the network by a rule of the service table. It stays
what it is through every packet but a reset, which is taken without any check.
-/

namespace Serval

open Serval.Support

/-- The rule of the service table that leads to the socket at `p`. -/
def registered (table : ServiceTable) (sk : ServalSock) (p : Ptr) : Bool :=
  match serviceFind table sk.localSrvid.toList sk.serviceBits with
  | .ok (some se) =>
    se.targetSet.any fun set =>
      set.list.any fun t => t.type = .demux && t.out.raw = some p
  | _ => false

structure StaysListening (host host' : SalHost) : Prop where
  skState : host'.sk.skState = .listen
  localSrvid : host'.sk.localSrvid = host.sk.localSrvid
  srvidPrefixBits : host'.sk.srvidPrefixBits = host.sk.srvidPrefixBits
  table : host'.table = host.table

namespace StaysListening

variable {host host' host'' : SalHost}

private theorem of_sends {sent : WirePacket → Prop} (listening : host.sk.skState = .listen)
    (sends : Sends sent host host') : StaysListening host host' := by
  obtain ⟨_, _, _, _, rfl, -⟩ := sends
  exact ⟨listening, rfl, rfl, rfl⟩

end StaysListening

section

variable {env : SalEnv} {host host' : SalHost} {skb : RcvSkb}

private theorem servalSalRcvRsynack_listens (listening : host.sk.skState = .listen)
    (run : servalSalRcvRsynack env host skb = .ok host') :
    StaysListening host host' := by
  rw [servalSalRcvRsynack] at run
  split at run
  · cases run
    exact ⟨listening, rfl, rfl, rfl⟩
  split at run
  · obtain ⟨middle, sent, run⟩ := of_bind run
    obtain ⟨⟨err, last⟩, acked, run⟩ := of_bind run
    cases run
    obtain ⟨_, _, _, _, rfl, -⟩ := xmitAll_sends sent
    obtain ⟨_, _, _, _, rfl, -⟩ := servalSalSendAck_sends acked
    exact ⟨listening, rfl, rfl, rfl⟩
  · obtain ⟨⟨err, last⟩, acked, run⟩ := of_bind run
    cases run
    obtain ⟨_, _, _, _, rfl, -⟩ := servalSalSendAck_sends acked
    exact ⟨listening, rfl, rfl, rfl⟩
  · cases run
    exact ⟨listening, rfl, rfl, rfl⟩

theorem rcvMigration_listens (listening : host.sk.skState = .listen)
    (run : rcvMigration env host skb = .ok host') :
    StaysListening host host' := by
  rw [rcvMigration] at run
  split_ifs at run with rsyn ack
  · exact servalSalRcvRsynack_listens listening run
  · rw [servalSalRcvRsyn] at run
    split_ifs at run with valid ignored
    · cases run
      exact ⟨listening, rfl, rfl, rfl⟩
    · cases run
      exact ⟨listening, rfl, rfl, rfl⟩
    · exact absurd (Or.inr (Or.inl listening)) ignored
    · exact absurd (Or.inr (Or.inl listening)) ignored
  · cases run
    exact ⟨listening, rfl, rfl, rfl⟩

end

/-- A socket of a connection on the way to `srvid`, which has no rule of its
own in the service table. -/
structure KnownByFlow (table : ServiceTable) (srvid : Vector UInt8 32) (host : SalHost) :
    Prop where
  notListen : host.sk.skState ≠ .listen
  notInit : host.sk.skState ≠ .init
  table : host.table = table
  peerSrvid : host.sk.peerSrvid = srvid

namespace KnownByFlow

variable {env : SalEnv} {table : ServiceTable} {srvid : Vector UInt8 32} {host host' : SalHost}

theorem withSk {sk : ServalSock} (known : KnownByFlow table srvid host)
    (state : sk.skState = host.sk.skState)
    (same : sk.peerSrvid = host.sk.peerSrvid) : KnownByFlow table srvid (host.withSk sk) :=
  ⟨fun here => known.notListen (state.symm.trans here),
    fun here => known.notInit (state.symm.trans here), known.table, same.trans known.peerSrvid⟩

theorem sends {sent : WirePacket → Prop} (known : KnownByFlow table srvid host)
    (run : Sends sent host host') : KnownByFlow table srvid host' := by
  obtain ⟨_, _, _, _, rfl, -⟩ := run
  exact ⟨known.notListen, known.notInit, known.table, known.peerSrvid⟩

theorem bump (known : KnownByFlow table srvid host) : KnownByFlow table srvid host.bump :=
  ⟨known.notListen, known.notInit, known.table, known.peerSrvid⟩

theorem pushed {skb : CtrlSkb} {err : Int} (known : KnownByFlow table srvid host)
    (run : servalSalQueueAndPush env host skb = .ok (err, host')) :
    KnownByFlow table srvid host' := by
  obtain ⟨_, _, _, _, _, _, _, _, _, rfl⟩ := servalSalQueueAndPush_frame run
  exact ⟨known.notListen, known.notInit, known.table, known.peerSrvid⟩

theorem reset (known : KnownByFlow table srvid host) (run : servalSalRcvReset host = .ok host') :
    KnownByFlow table srvid host' := by
  rw [servalSalRcvReset] at run
  split at run
  · cases run
    exact known
  obtain ⟨_, _, _, _, _, rfl, same, -⟩ := servalSalDone_spec run
  refine ⟨?_, ?_, (same known.notListen known.notInit).trans known.table, known.peerSrvid⟩
  · show SalState.closed ≠ .listen
    decide
  · show SalState.closed ≠ .init
    decide

private theorem runReply {reply : Reply} (known : KnownByFlow table srvid host)
    (run : runReply env host reply = .ok host') : KnownByFlow table srvid host' := by
  refine runReply_keeps (fun known sent => known.sends sent) ?_
    (fun _ _ _ known ended => known.reset ended) known run
  intro _ host host' err known sent
  obtain ⟨_, _, _, _, _, _, _, _, _, rfl⟩ := servalSalQueueAndPush_frame sent
  exact ⟨known.notListen, known.notInit, known.table, known.peerSrvid⟩

theorem ackProcess {hdr : SalHeader} {acked : Bool} (known : KnownByFlow table srvid host)
    (run : servalSalAckProcess env host hdr = .ok (acked, host')) :
    KnownByFlow table srvid host' := by
  rcases (servalSalAckProcess_spec run).2 with
    ⟨-, rfl⟩ | ⟨-, rfl | sent⟩
  · exact known
  · exact known.withSk rfl rfl
  · have migrated : KnownByFlow table srvid
        (host.bump.withSk (takeMigDaddr (ackedSk host.sk hdr.ackno))) :=
      ⟨known.notListen, known.notInit, known.table, known.peerSrvid⟩
    exact migrated.sends sent

private theorem respond {skb : RcvSkb} (known : KnownByFlow table srvid host)
    (run : servalSalRespondStateProcess env host skb = .ok host') :
    KnownByFlow table srvid host' := by
  rw [servalSalRespondStateProcess] at run
  split at run
  · cases run
    exact known
  obtain ⟨⟨acked, first⟩, processed, run⟩ := of_bind run
  have afterAck := known.ackProcess processed
  simp only at run
  split at run
  · cases run
    exact afterAck
  obtain ⟨second, replied, run⟩ := of_bind run
  have saved : KnownByFlow table srvid (first.bump.withSk (saveSource first.sk skb)) :=
    afterAck.bump.withSk rfl rfl
  have afterReply := saved.runReply replied
  split at run
  · cases run
    exact afterReply
  cases run
  refine ⟨?_, ?_, afterReply.table, afterReply.peerSrvid⟩
  · show SalState.connected ≠ .listen
    decide
  · show SalState.connected ≠ .init
    decide

end KnownByFlow

variable {env : SalEnv} {host host' : SalHost}

section

variable {env : SalEnv} {host host' : SalHost} {skb : RcvSkb}

/-- The new socket of a request, on the host that its first packet meets. -/
theorem KnownByFlow.child (host : SalHost) (rsk : RequestSock) :
    KnownByFlow host.table rsk.peerSrvid
      { host.bump.withSk (moveRequest host.sk rsk) with
        sk := respondSock host.sk rsk, children := [] } :=
  ⟨by show SalState.respond ≠ .listen; decide, by show SalState.respond ≠ .init; decide, rfl, rfl⟩

end

def listenerTable : ServiceTable :=
  match
    serviceAdd serviceTableInit (some ⟨List.replicate 32 3, rfl⟩) 2
      ⟨.demux, 0, 1, 1, 0, none, 0, 0, none, .sk 7 6⟩ Allocs.succeed with
  | .ok (_, table) => table
  | .error _ => serviceTableInit

def plainListener : SalHost :=
  plainHost
    { plainSock with
      skState := .listen, rcvNxt := 0, hashKeyLen := 2, srvidPrefixBits := 2 }
    listenerTable

def requestSkb : RcvSkb :=
  let skb := plainSkb { plainControl 50 0 (Vector.replicate 8 1) with syn := true }
  { skb with
    hdr :=
      { skb.hdr with
        length := 68, srvExt0 := some ⟨36, Vector.replicate 32 3⟩ } }

end Serval
