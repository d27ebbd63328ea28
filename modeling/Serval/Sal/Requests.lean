import Serval.Sal.Answers

/-!
# Requests of different clients

A listener finds the request that a SYN repeats by the flow id of the client,
which every host counts for itself.
-/

open Serval.Support

namespace Serval

/-- The source extension of the header, if there is one, is as the parser
leaves it. -/
def SourceRead (hdr : SalHeader) : Prop :=
  ∀ ext, hdr.srcExt = some ext → ∃ src : SalExt, src.kind = .source ∧ src.bytes = ext

/-- The source extension that a receiver reads is one of the header. -/
theorem WirePacket.source_of_hdr {p : WirePacket} {hdr : SalHeader}
    (parsed : p.hdr = some hdr) (whole : salLength p.sal ≤ p.sal.length) : SourceRead hdr := by
  intro ext given
  rw [WirePacket.hdr] at parsed
  split at parsed
  · rename_i ctx accepted
    cases parsed
    obtain ⟨exts, split, -, described⟩ := SalSplit.of_parse accepted whole
    rw [SalHeader.ofContext_eq described split.here] at given
    obtain ⟨src, member, rfl⟩ := Option.map_eq_some_iff.mp given
    have inside := List.mem_of_getElem? member
    exact ⟨src, of_decide_eq_true (List.mem_filter.mp inside).2, rfl⟩
  · cases parsed

/-- The address of the client: the first address on the way of its request,
or the address that the request comes from. -/
def clientAddr (skb : RcvSkb) : NetAddr :=
  match skb.hdr.srcExt with
  | some ext => sourceExtAddr ext 0
  | none => skb.saddr

/-- The request of a client, with all that a listener asks of it. -/
structure ClientRequest (host : SalHost) (skb : RcvSkb) : Prop where
  listen : host.sk.skState = .listen
  arrived : ∃ p : WirePacket, p.hdr = some skb.hdr ∧ salLength p.sal ≤ p.sal.length
  syn : skb.hdr.hasSyn = true
  noAck : skb.hdr.hasAck = false
  noRst : skb.hdr.hasRst = false
  noRsyn : skb.hdr.hasRsyn = false
  control : hasValidControlExtension host.sk skb.hdr = true
  service : hasServiceExtension skb.hdr = true
  backlog : host.sk.ackBacklog < host.sk.maxAckBacklog

/-- The device has an address, there is memory for the request and for the
response, the transport protocol agrees, and the response is sent. -/
structure CanAnswer (env : SalEnv) (tick : Nat) (skb : RcvSkb) : Prop where
  device : (env.devAddr skb.dev).isSome = true
  request : (env.reqsk tick).isSome = true
  agreed : env.transport.connRequest tick = 0
  memory : env.alloc (tick + 1) = true
  filled : (env.transport.connBuildSynack (tick + 1)).1 = 0
  room : sourceRoom skb.hdr + 32 + ipHdrSize ≤ (env.headroom (tick + 1)).length
  sent : 0 ≤ env.xmit (tick + 1)

/-- The listener has a request socket for the client, and has sent it a
response that acknowledges its version. -/
structure Serves (env : SalEnv) (host : SalHost) (skb : RcvSkb) (host' : SalHost)
    (rsk : RequestSock) (p : WirePacket) : Prop where
  run : servalSalStateProcess env host skb = .ok host'
  queued : host'.sk.synQueue = rsk :: host.sk.synQueue
  flow : rsk.peerFlowid = skb.hdr.srcFlowid
  verno : rsk.rcvSeq = skb.hdr.verno
  client : rsk.rmtAddr = clientAddr skb
  out : host'.out = host.out ++ [p]
  address : p.daddr = clientAddr skb
  synack :
    ∃ hdr, p.hdr = some hdr ∧ hdr.hasSyn = true ∧ hdr.hasAck = true ∧
      hdr.dstFlowid = skb.hdr.srcFlowid ∧ hdr.ackno = skb.hdr.verno + 1

/-! ## What the listener does -/

section

variable {env : SalEnv} {host host' : SalHost} {skb : RcvSkb}

theorem servalSalStateProcess_listen
    (listen : host.sk.skState = .listen) (noRst : skb.hdr.hasRst = false)
    (noRsyn : skb.hdr.hasRsyn = false) :
    servalSalStateProcess env host skb =
      servalSalListenStateProcess env host skb := by
  have valid : hasValidVerno skb.hdr.verno host.sk = true := by simp [hasValidVerno, listen]
  rw [servalSalStateProcess, stateProcess, valid, noRst, rcvMigration, noRsyn]
  simp [stateSwitch, listen]

variable {rsk : RequestSock} {p : WirePacket}

/-- A SYN that makes a new request does not repeat another one: the response
to the other one leaves the queue as it was. -/
theorem servalSalListenStateProcess_queued (syn : skb.hdr.hasSyn = true)
    (noAck : skb.hdr.hasAck = false)
    (run : servalSalListenStateProcess env host skb = .ok host')
    (queued : host'.sk.synQueue = rsk :: host.sk.synQueue) :
    servalSalFindRsk host.sk skb.hdr = none ∧ servalSalRcvSyn env host skb = .ok host' := by
  rw [servalSalListenStateProcess, syn, noAck] at run
  cases found : servalSalFindRsk host.sk skb.hdr with
  | none =>
    rw [found] at run
    exact ⟨rfl, run⟩
  | some other =>
    rw [found] at run
    obtain ⟨⟨err, last⟩, sent, run⟩ := of_bind run
    cases run
    obtain ⟨_, _, _, _, rfl, -⟩ := servalSalSendSynack_sends sent
    exact absurd queued (List.cons_ne_self rsk _).symm

private theorem ClientRequest.process (request : ClientRequest host skb) :
    servalSalStateProcess env host skb =
      servalSalListenStateProcess env host skb :=
  servalSalStateProcess_listen request.listen request.noRst request.noRsyn

private theorem ClientRequest.source (request : ClientRequest host skb) : SourceRead skb.hdr := by
  obtain ⟨p, parsed, whole⟩ := request.arrived
  exact WirePacket.source_of_hdr parsed whole

theorem fillRequestSock_rmtAddr (rsk : RequestSock) (ctrl : ControlExt) (srv : ServiceExt)
    (myaddr : NetAddr) :
    (fillRequestSock rsk skb ctrl srv myaddr).rmtAddr = clientAddr skb := by
  rw [fillRequestSock, clientAddr]
  cases skb.hdr.srcExt <;> rfl

private theorem fillRequestSock_peer (rsk : RequestSock) (ctrl : ControlExt) (srv : ServiceExt)
    (myaddr : NetAddr) :
    (fillRequestSock rsk skb ctrl srv myaddr).peerFlowid = skb.hdr.srcFlowid ∧
      (fillRequestSock rsk skb ctrl srv myaddr).rcvSeq = ctrl.verno := by
  rw [fillRequestSock]
  cases skb.hdr.srcExt <;> exact ⟨rfl, rfl⟩

theorem servalIpv4FillInHdr_returns_iff {rskb : SkBuff} :
    (∃ rskb', servalIpv4FillInHdr rskb = .ok rskb') ↔ ipHdrSize ≤ rskb.headroom.length := by
  rw [servalIpv4FillInHdr, skbPush]
  split_ifs with room
  · exact ⟨fun _ => room, fun _ => ⟨_, rfl⟩⟩
  · exact ⟨by rintro ⟨_, ⟨⟩⟩, fun fits => absurd fits room⟩

/-- Head room for a response, if one is made: the IP header, the header with
its control extension, and the source extension with one address more. -/
def SynackFits (env : SalEnv) (tick : Nat) (hdr : SalHeader) : Prop :=
  env.alloc tick = true → (env.transport.connBuildSynack tick).1 = 0 →
    sourceRoom hdr + 32 + ipHdrSize ≤ (env.headroom tick).length

theorem servalSalSendSynack_fits {err : Int}
    (run : servalSalSendSynack env host rsk skb = .ok (err, host')) :
    SynackFits env host.tick skb.hdr := by
  intro memory filled
  rw [servalSalSendSynack, memory] at run
  simp only [filled] at run
  obtain ⟨rskb, built, run⟩ := of_bind run
  obtain ⟨sal, -, run⟩ := of_bind run
  obtain ⟨last, sent, -⟩ := of_bind run
  obtain ⟨framed, pushed, -⟩ := of_bind sent
  have room := servalIpv4FillInHdr_returns_iff.mp ⟨framed, pushed⟩
  have left := headroom_of_buildSynack built
  dsimp only at room left
  omega

/-- The response is sent if there is memory for it, the transport protocol
agrees and the network takes it. -/
theorem servalSalSendSynack_sent_iff {err : Int}
    (run : servalSalSendSynack env host rsk skb = .ok (err, host')) :
    (∃ p, host'.out = host.out ++ [p]) ↔
      env.alloc host.tick = true ∧ (env.transport.connBuildSynack host.tick).1 = 0 ∧
        0 ≤ env.xmit host.tick := by
  have nothing : ¬ ∃ p, host.out = host.out ++ [p] := by simp
  rw [servalSalSendSynack] at run
  split_ifs at run with failed
  · cases run
    exact iff_of_false nothing fun ready => by simp [ready.1] at failed
  have memory : env.alloc host.tick = true := by simpa using failed
  dsimp only at run
  split_ifs at run with refused
  · cases run
    exact iff_of_false nothing fun ready => refused ready.2.1
  obtain ⟨rskb, -, run⟩ := of_bind run
  obtain ⟨sal, -, run⟩ := of_bind run
  obtain ⟨last, sent, run⟩ := of_bind run
  cases run
  obtain ⟨-, -, sent⟩ := of_bind sent
  split at sent
  · rename_i lost
    cases sent
    exact iff_of_false nothing fun ready => by omega
  · rename_i taken
    cases sent
    exact iff_of_true ⟨_, rfl⟩ ⟨memory, not_not.mp refused, not_lt.mp taken⟩

private theorem exists_pushSourceExt {rskb : SkBuff} {src : SalExt} (kind : src.kind = .source)
    (room : src.bytes.length + 8 ≤ rskb.headroom.length) (locAddr : NetAddr) :
    ∃ rskb', pushSourceExt rskb (some src.bytes) locAddr = .ok (src.bytes.length + 4, rskb') ∧
      src.bytes.length + 4 ≤ rskb'.data.length := by
  by_cases fits : src.bytes.length + 4 ≤ 255
  · obtain ⟨src', rskb', pushed, -, size, -, data, -⟩ :=
      pushSourceExt_fits kind (show _ ≤ rskb.headroom.length by omega) fits locAddr
    refine ⟨rskb', pushed, ?_⟩
    rw [data, List.length_append]
    omega
  · obtain ⟨first, body, rskb', pushed, data, size⟩ :=
      pushSourceExt_wrapped kind room (by omega) locAddr
    refine ⟨rskb', pushed, ?_⟩
    rw [data, List.length_append, List.length_append, extHdr]
    simp only [List.length_cons]
    omega

/-- The header of an answer counts no more words than there are. -/
theorem exists_checked_of_pushAnswer {skb skb' : SkBuff} {sk : SalSock} {cb : SalSkbCb}
    {extLen : Nat} (inside : extLen ≤ skb.data.length) (short : extLen ≤ 988)
    (pushed : pushAnswer skb sk cb extLen = .ok skb') (address : Nat) :
    ∃ sal, servalSalSendCheck address skb'.data = .ok sal := by
  have words : (skb.data.take (4 * (extLen / 4))).length = 4 * (extLen / 4) := by
    rw [List.length_take]
    omega
  have framed := pushAnswer_framed (List.take_append_drop (4 * (extLen / 4)) skb.data).symm
    (by omega) (by omega) pushed
  obtain ⟨sal, sent, -⟩ := framed.sendCheck address []
  rw [List.append_nil, List.append_nil] at sent
  exact ⟨sal, sent⟩

private theorem exists_buildSynack {rskb : SkBuff} (rsk : RequestSock) {hdr : SalHeader}
    (source : SourceRead hdr)
    (room : sourceRoom hdr + 32 ≤ rskb.headroom.length) (address : Nat) :
    ∃ rskb' sal, buildSynack rskb rsk hdr = .ok rskb' ∧
      servalSalSendCheck address rskb'.data = .ok sal := by
  have answered {rskb₁ : SkBuff} {extLen : Nat} (inside : extLen ≤ rskb₁.data.length)
      (short : extLen ≤ 988) (left : 32 ≤ rskb₁.headroom.length) :
      ∃ rskb' sal,
        pushAnswer rskb₁ (synackSock rsk hdr.protocol) (synackCb rsk) extLen = .ok rskb' ∧
        servalSalSendCheck address rskb'.data = .ok sal := by
    obtain ⟨rskb', pushed⟩ := exists_pushAnswer (synackSock rsk hdr.protocol) (synackCb rsk)
        extLen left
    obtain ⟨sal, checked⟩ := exists_checked_of_pushAnswer inside short pushed address
    exact ⟨rskb', sal, pushed, checked⟩
  rw [sourceRoom] at room
  rw [buildSynack]
  cases given : hdr.srcExt with
  | none =>
    rw [given] at room
    exact answered (Nat.zero_le _) (Nat.zero_le _) (by simpa using room)
  | some ext =>
    obtain ⟨src, kind, rfl⟩ := source ext given
    have small := SalExt.length_lt (show src.kind ≠ .pad by
      rw [kind]
      decide)
    rw [given, Option.map_some, Option.getD_some] at room
    obtain ⟨rskb₁, pushed, inside⟩ := @exists_pushSourceExt rskb src kind (by omega) rsk.locAddr
    have left := headroom_of_pushSourceExt pushed
    rw [pushed]
    exact answered inside (by omega) (by omega)

theorem exists_servalSalSendSynack (rsk : RequestSock) (source : SourceRead skb.hdr)
    (fits : SynackFits env host.tick skb.hdr) :
    ∃ err host', servalSalSendSynack env host rsk skb = .ok (err, host') := by
  rw [servalSalSendSynack]
  split_ifs with failed
  · exact ⟨_, _, rfl⟩
  dsimp only
  split_ifs with refused
  · exact ⟨_, _, rfl⟩
  have room := fits (by simpa using failed) (not_not.mp refused)
  obtain ⟨rskb, sal, built, checked⟩ := @exists_buildSynack ⟨⟨0, 0⟩, env.headroom host.tick,
        (env.transport.connBuildSynack host.tick).2⟩ rsk skb.hdr source
      (show _ ≤ (env.headroom host.tick).length by omega) env.address
  have left := headroom_of_buildSynack built
  obtain ⟨framed, pushed⟩ := (@servalIpv4FillInHdr_returns_iff { rskb with data := sal }).mpr
    (by dsimp only at left ⊢; omega)
  rw [built, ok_bind, checked, ok_bind, buildAndSendPkt, pushed, ok_bind]
  split
  · exact ⟨_, _, rfl⟩
  · exact ⟨_, _, rfl⟩

private theorem synackCb_syn (rsk : RequestSock) : hasFlag (synackCb rsk).flags svhSyn = true := by
  show hasFlag (UInt8.ofNat (svhSyn + svhAck)) svhSyn = true
  decide

private theorem synackCb_ack (rsk : RequestSock) : hasFlag (synackCb rsk).flags svhAck = true := by
  show hasFlag (UInt8.ofNat (svhSyn + svhAck)) svhAck = true
  decide

private theorem IsSynack.reads {hdr : SalHeader} (synack : IsSynack env rsk hdr p)
    (source : SourceRead hdr)
    (fits : SourceFits hdr) :
    ∃ srcExt, p.hdr = some (SalHeader.ofAnswer (synackSock rsk hdr.protocol) (synackCb rsk)
          srcExt) := by
  cases given : hdr.srcExt with
  | none => exact ⟨none, synack.hdr_plain given⟩
  | some ext =>
    obtain ⟨src, kind, rfl⟩ := source ext given
    obtain ⟨words, short⟩ := fits _ given
    obtain ⟨src', -, -, read⟩ := synack.hdr_source kind given words short
    exact ⟨some src'.bytes, read⟩

private theorem IsSynack.fits {hdr hdr' : SalHeader} (synack : IsSynack env rsk hdr p)
    (source : SourceRead hdr)
    (read : p.hdr = some hdr') : SourceFits hdr := by
  intro ext given
  obtain ⟨src, kind, rfl⟩ := source ext given
  by_contra bad
  rw [synack.hdr_refused kind given bad] at read
  cases read

private theorem servalSalFindRsk_eq_none (sk : ServalSock) (hdr : SalHeader) :
    servalSalFindRsk sk hdr = none ↔
      ∀ rsk ∈ sk.synQueue ++ sk.acceptQueue, rsk.peerFlowid ≠ hdr.srcFlowid := by
  rw [servalSalFindRsk, List.find?_eq_none]
  simp only [decide_eq_true_eq, ne_eq]

private theorem ClientRequest.process_new (request : ClientRequest host skb)
    (fresh : servalSalFindRsk host.sk skb.hdr = none) :
    servalSalStateProcess env host skb = servalSalRcvSyn env host skb := by
  rw [request.process, servalSalListenStateProcess, request.syn, request.noAck, fresh]
  rfl

private theorem ClientRequest.extensions (request : ClientRequest host skb) :
    ∃ ctrl srv, skb.hdr.ctrlExt = some ctrl ∧ skb.hdr.srvExt0 = some srv ∧
      skb.hdr.verno = ctrl.verno := by
  obtain ⟨ctrl, control⟩ := Option.isSome_iff_exists.mp (Option.isSome_of_any request.syn)
  have service := request.service
  cases named : skb.hdr.srvExt0 with
  | none =>
    rw [hasServiceExtension, named] at service
    cases service
  | some srv =>
    refine ⟨ctrl, srv, control, rfl, ?_⟩
    rw [SalHeader.verno, control]
    rfl

private theorem ClientRequest.rcvSyn
    (request : ClientRequest host skb) {ctrl : ControlExt} {srv : ServiceExt}
    (control : skb.hdr.ctrlExt = some ctrl)
    (service : skb.hdr.srvExt0 = some srv) :
    servalSalRcvSyn env host skb =
      match env.devAddr skb.dev, env.reqsk host.tick with
      | some myaddr, some fresh =>
        if env.transport.connRequest host.tick ≠ 0 then
          .ok host.bump
        else do
          let (_, host) ← servalSalSendSynack env
              (host.bump.withSk (addRequest host.sk (fillRequestSock fresh skb ctrl srv myaddr)))
              (fillRequestSock fresh skb ctrl srv myaddr) skb
          .ok host
      | _, _ => .ok host.bump := by
  rw [servalSalRcvSyn, request.control, request.service, if_neg (by decide),
    if_neg (by simpa using request.backlog), control, service]
  cases env.devAddr skb.dev <;> cases env.reqsk host.tick <;> rfl

/-- Every SYN of a client is answered as the client's own, if no request with
the same flow id waits, there are the resources, and its source extension has
whole words and room for one address more. -/
theorem request_served_iff (request : ClientRequest host skb) :
    (∃ host' rsk p, Serves env host skb host' rsk p) ↔
      (∀ rsk ∈ host.sk.synQueue ++ host.sk.acceptQueue, rsk.peerFlowid ≠ skb.hdr.srcFlowid) ∧
      CanAnswer env host.tick skb ∧ SourceFits skb.hdr := by
  obtain ⟨ctrl, srv, control, service, verno⟩ := request.extensions
  have source := request.source
  rw [← servalSalFindRsk_eq_none]
  constructor
  · rintro ⟨host', rsk, p, serves⟩
    have run := serves.run
    rw [request.process] at run
    obtain ⟨found, run⟩ := servalSalListenStateProcess_queued request.syn request.noAck run
        serves.queued
    refine ⟨found, ?_⟩
    rw [request.rcvSyn control service] at run
    have unqueued {tick : Nat} (same : host' = { host with tick }) :
        False := by
      have queued := serves.queued
      rw [same] at queued
      exact (List.cons_ne_self rsk _).symm queued
    split at run
    · rename_i myaddr fresh address alloc
      split_ifs at run with agreed
      · cases run
        exact (unqueued rfl).elim
      obtain ⟨⟨err, last⟩, sent, run⟩ := of_bind run
      cases run
      obtain ⟨memory, filled, transmitted⟩ :=
        (servalSalSendSynack_sent_iff sent).mp ⟨p, serves.out⟩
      have room := servalSalSendSynack_fits sent memory filled
      have isSynack := (servalSalSendSynack_sends sent).each serves.out p (by simp)
      obtain ⟨hdr, read, -⟩ := serves.synack
      exact ⟨⟨by rw [address]; rfl, by rw [alloc]; rfl, not_not.mp agreed, memory, filled, room,
        transmitted⟩,
        isSynack.fits source read⟩
    · cases run
      exact (unqueued rfl).elim
  · rintro ⟨distinct, can, fits⟩
    obtain ⟨myaddr, address⟩ := Option.isSome_iff_exists.mp can.device
    obtain ⟨fresh, alloc⟩ := Option.isSome_iff_exists.mp can.request
    obtain ⟨err, host', run⟩ := @exists_servalSalSendSynack env
        (host.bump.withSk (addRequest host.sk (fillRequestSock fresh skb ctrl srv myaddr))) skb
        (fillRequestSock fresh skb ctrl srv myaddr) source fun _ _ => can.room
    obtain ⟨p, out⟩ := (servalSalSendSynack_sent_iff run).mpr ⟨can.memory, can.filled, can.sent⟩
    have processed : servalSalStateProcess env host skb = .ok host' := by
      rw [request.process_new distinct, request.rcvSyn control service, address, alloc]
      simp only [can.agreed, run, ok_bind]
      rfl
    have isSynack := (servalSalSendSynack_sends run).each out p (by simp)
    have client := @fillRequestSock_rmtAddr skb fresh ctrl srv myaddr
    obtain ⟨flow, seq⟩ := @fillRequestSock_peer skb fresh ctrl srv myaddr
    obtain ⟨srcExt, read⟩ := isSynack.reads source fits
    have queued : host'.sk.synQueue =
        fillRequestSock fresh skb ctrl srv myaddr :: host.sk.synQueue := by
      obtain ⟨_, _, _, _, rfl, -⟩ := servalSalSendSynack_sends run
      rfl
    refine ⟨host', _, p, processed, queued, flow, seq.trans verno.symm, client, out,
      isSynack.1.trans client, _, read,
      synackCb_syn _, synackCb_ack _, flow, ?_⟩
    rw [verno, ← seq]
    rfl

end

private def requestPacket : WirePacket where
  saddr := requestSkb.saddr
  daddr := requestSkb.daddr
  sal :=
    let sk : SalSock :=
      { plainSock.toSalSock with
        localFlowid := Vector.replicate 4 2
        peerFlowid := Vector.replicate 4 1
        localNonce := Vector.replicate 8 1
        rcvNxt := 0 }
    salHdr (List.replicate 12 0) sk 68 ++
      (controlExt (List.replicate 20 0) sk ⟨UInt8.ofNat svhSyn, 50⟩ ++
        serviceExt (List.replicate 36 0) (Vector.replicate 32 3))

private theorem requestSkb_clientRequest : ClientRequest plainListener requestSkb where
  listen := rfl
  arrived := ⟨requestPacket, by decide +kernel, by decide +kernel⟩
  syn := rfl
  noAck := rfl
  noRst := rfl
  noRsyn := rfl
  control := by decide
  service := by decide
  backlog := by decide

theorem request_served_iff_plain :
    ∃ host' rsk p, Serves plainEnv plainListener requestSkb host' rsk p := by
  refine (request_served_iff requestSkb_clientRequest).mpr
    ⟨by simp [plainListener, plainHost, plainSock], ?_, ?_⟩
  · exact ⟨rfl, rfl, rfl, rfl, rfl, by decide, by decide⟩
  · intro ext given
    cases given

def otherRequestSkb : RcvSkb :=
  { requestSkb with
    hdr :=
      { requestSkb.hdr with
        ctrlExt := some { plainControl 90 0 (Vector.replicate 8 4) with syn := true } }
    saddr := ipv4 10 0 0 3 }

/-- The second client gets no request socket, and its SYN makes the listener
repeat the response to the first one. -/
theorem requests_collide : leaves (do
        let host ← servalSalStateProcess plainEnv plainListener requestSkb
        servalSalStateProcess plainEnv host otherRequestSkb)
      (fun host => host.sk.synQueue.length = 1 &&
        host.out.map (fun p => (p.daddr, p.hdr.map SalHeader.ackno)) =
          [(requestSkb.saddr, some 51), (requestSkb.saddr, some 51)]) =
      true := by
  decide +kernel

end Serval
