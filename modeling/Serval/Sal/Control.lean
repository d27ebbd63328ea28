import Serval.Sal.Transmit

/-!
# Control packets

The queue of control packets that wait for their acknowledgement, and the
packets that the layer sends on its own: requests, migrations, the end of a
connection, acknowledgements and resets.
-/

namespace Serval

open Serval.Support

/-- The loop over the packets in front of the send head: those that are left,
the unacknowledged version, and the flags of those that went. -/
def cleanLoop (ackno : UInt32) (all : Bool) (unsent : List CtrlSkb) :
    List CtrlSkb → UInt32 → UInt8 → List CtrlSkb × UInt32 × UInt8
  | [], una, flags => ([], una, flags)
  | skb :: rest, una, flags =>
    if after ackno skb.cb.verno || all then
      let head := (rest ++ unsent).head?
      cleanLoop ackno all unsent rest ((head.map (·.cb.verno)).getD una)
        (flags ||| skb.cb.flags)
    else
      (skb :: rest, una, flags)

def servalSalCleanRtxQueue (sk : ServalSock) (ackno : UInt32) (all : Bool) : ServalSock × UInt8 :=
  let (left, una, flags) := cleanLoop ackno all sk.ctrlUnsent sk.ctrlSent sk.sndUna 0
  let removed := left.length ≠ sk.ctrlSent.length
  let sk :=
    { sk with
      ctrlSent := left
      sndUna := una
      retransmits := if removed then 0 else sk.retransmits }
  let timer :=
    if sk.ctrlQueue.isEmpty then !removed && sk.retransmitTimer else true
  ({ sk with retransmitTimer := timer }, flags)

def servalSalQueueCtrlSkb (sk : ServalSock) (skb : CtrlSkb) : ServalSock :=
  { sk with
    ctrlUnsent := sk.ctrlUnsent ++ [skb]
    sndUna := if sk.ctrlQueue.isEmpty then skb.cb.verno else sk.sndUna }

/-- `serval_sal_write_xmit` with a limit of one packet. -/
def servalSalWriteXmit (env : SalEnv) (host : SalHost) : Except Fault (Int × SalHost) :=
  match host.sk.ctrlUnsent with
  | [] => .ok (0, host)
  | skb :: rest =>
    if host.sk.sndNxt - host.sk.sndUna ≤ host.sk.sndWnd then do
      let (err, host) ← servalSalTransmitSkb env host skb true
      if err < 0 then .ok (err, host)
      else
        .ok (err, host.withSk
          { host.sk with
            ctrlSent := host.sk.ctrlSent ++ [skb]
            ctrlUnsent := rest })
    else
      .ok (0, host)

/-- The packets that were sent and not acknowledged give way to the new one,
which takes over their flags. -/
def enqueue (sk : ServalSock) (skb : CtrlSkb) : ServalSock :=
  let (sk, flags) := servalSalCleanRtxQueue sk 0 true
  let skb := { skb with cb.flags := skb.cb.flags ||| flags }
  let first := sk.ctrlQueue.isEmpty
  let sk := servalSalQueueCtrlSkb sk skb
  { sk with retransmitTimer := first || sk.retransmitTimer }

def servalSalQueueAndPush (env : SalEnv) (host : SalHost) (skb : CtrlSkb) :
    Except Fault (Int × SalHost) :=
  servalSalWriteXmit env (host.withSk (enqueue host.sk skb))

/-! ## Packets of a socket -/

def ctrlSkb (flags : Nat) (verno : UInt32) (data : List UInt8) : CtrlSkb :=
  ⟨⟨UInt8.ofNat flags, verno⟩, data⟩

section

variable (env : SalEnv) (host : SalHost)

def servalSalSendSyn (verno : UInt32) : Except Fault (Int × SalHost) :=
  if !env.alloc host.tick then
    .ok (-ENOMEM, host.bump)
  else
    let (err, data) := env.transport.connBuildSyn host.tick
    if err ≠ 0 then
      .ok (err, host.bump)
    else
      servalSalQueueAndPush env
        (host.bump.withSk { host.sk with sndNxt := verno + 1 })
        (ctrlSkb svhSyn verno data)

/-- `serval_connect` for a socket that is not connected. -/
def servalConnect (srvid : Vector UInt8 32) : Except Fault (Int × SalHost) := do
  let sk := servalSockHash { host.sk with skState := .request, peerSrvid := srvid }
  let (err, host) ← servalSalSendSyn env (host.withSk sk) sk.sndIss
  if err < 0 then do
    let host ← servalSockUnhash host
    .ok (err, host.setState .closed)
  else
    .ok (err, host)

def closesOwn (state : SalState) : Bool := state = .finwait1 || state = .closing || state = .lastack

def RsynState.afterSend : RsynState → RsynState
  | .initial => .sent
  | .recv => .sentRecv
  | state => state

def servalSalSendRsyn (verno : UInt32) : Except Fault (Int × SalHost) :=
  if host.sk.skState = .request ∨ host.sk.skState = .listen ∨ host.sk.skState = .closed then
    .ok (0, host)
  else
    let flags :=
      if closesOwn host.sk.skState then svhRsyn + svhFin else svhRsyn
    let sk := { host.sk with salState := host.sk.salState.afterSend }
    servalSalQueueAndPush env (host.withSk sk) (ctrlSkb flags verno [])

def servalSalMigrate : Except Fault (Int × SalHost) :=
  servalSalSendRsyn env
    (host.withSk { host.sk with sndNxt := host.sk.sndNxt + 1 })
    host.sk.sndNxt

def servalSalSendFin : Except Fault (Int × SalHost) :=
  let flags :=
    match host.sk.salState with
    | .sent => svhFin + svhRsyn
    | .recv => svhFin + svhRsyn + svhAck
    | _ => svhFin
  let sk := { host.sk with sndNxt := host.sk.sndNxt + 1, finSent := true }
  servalSalQueueAndPush env (host.withSk sk)
    (ctrlSkb flags host.sk.sndNxt [])

def servalSalSendAck : Except Fault (Int × SalHost) :=
  if !env.alloc host.tick then
    .ok (-ENOMEM, host.bump)
  else
    servalSalTransmitSkb env host.bump (ctrlSkb svhAck host.sk.sndNxt [])
      false

def servalSalSendActiveReset :
    Except Fault SalHost :=
  if !env.alloc host.tick then
    .ok host.bump
  else do
    let (_, host) ← servalSalTransmitSkb env host.bump
        (ctrlSkb (svhRst + svhAck) host.sk.sndNxt []) false
    .ok host

end

/-! ## What the transport protocol does -/

/-- `serval_sal_xmit_skb`, for each of the packets. The control block of a
packet from the transport protocol has no flags. -/
def xmitAll (env : SalEnv) : SalHost → List (List UInt8) → Except Fault SalHost
  | host, [] => .ok host
  | host, data :: rest => do
    let (_, host) ← servalSalTransmitSkb env host (ctrlSkb 0 0 data) false
    xmitAll env host rest

def finIf (env : SalEnv) (host : SalHost) (fin : Bool) :
    Except Fault SalHost :=
  if fin then do
    let (_, host) ← servalSalSendFin env host
    .ok host
  else
    .ok host

def runReply (env : SalEnv) (host : SalHost) (reply : Reply) :
    Except Fault SalHost := do
  let host ← xmitAll env host reply.early
  let host ← finIf env host reply.fin
  let host ← xmitAll env host reply.late
  if reply.reset then servalSalRcvReset host else .ok host

/-! ## Answers without a socket of their own -/

/-- `serval_ipv4_build_and_send_pkt`. -/
def buildAndSendPkt (env : SalEnv) (host : SalHost) (dev : Ptr) (saddr daddr : NetAddr)
    (skb : SkBuff) : Except Fault SalHost := do
  let saddr :=
    if saddr = zeroAddr then (env.devAddr dev).getD saddr else saddr
  let _ ← servalIpv4FillInHdr skb
  if env.xmit host.tick < 0 then .ok host.bump
  else .ok (host.send ⟨saddr, daddr, skb.data⟩).bump

def answerSock (src dst : Vector UInt8 4) (protocol : UInt8) (nonce : Vector UInt8 8)
    (ackno : UInt32) : SalSock where
  skState := .closed
  skType := 0
  skProtocol := protocol
  localFlowid := src
  peerFlowid := dst
  localSrvid := Vector.replicate 32 0
  peerSrvid := Vector.replicate 32 0
  localNonce := nonce
  rcvNxt := ackno

def pushAnswer (skb : SkBuff) (sk : SalSock) (cb : SalSkbCb) (extLen : Nat) :
    Except Fault SkBuff := do
  let (ctrlLen, skb) ← pushPart skb 20 fun _ => controlExt (List.replicate 20 0) sk cb
  let (_, skb) ← pushPart skb salHeaderLen fun old =>
      salHdr old sk (extLen + ctrlLen + salHeaderLen)
  .ok skb

def resetSock (hdr : SalHeader) : SalSock :=
  answerSock hdr.dstFlowid hdr.srcFlowid hdr.protocol
    ((hdr.ctrlExt.map ControlExt.nonce).getD (Vector.replicate 8 0))
    (if hdr.hasAck then 0
    else
      hdr.verno + (if hdr.hasSyn then UInt32.ofNat svhSyn else 0) +
        (if hdr.hasFin then UInt32.ofNat svhFin else 0))

def resetCb (hdr : SalHeader) : SalSkbCb :=
  if hdr.hasAck then ⟨UInt8.ofNat svhRst, hdr.ackno⟩
  else ⟨UInt8.ofNat (svhRst + svhAck), 0⟩

def servalSalSendReset (env : SalEnv) (host : SalHost) (skb : RcvSkb) :
    Except Fault SalHost :=
  if skb.hdr.hasRst then
    .ok host
  else if !env.alloc host.tick then
    .ok host.bump
  else do
    let rskb ← pushAnswer ⟨⟨0, 0⟩, env.headroom host.tick, []⟩ (resetSock skb.hdr)
        (resetCb skb.hdr) 0
    let sal ← servalSalSendCheck env.address rskb.data
    buildAndSendPkt env host skb.dev skb.daddr skb.saddr { rskb with data := sal }

/-- The source extension of the request, copied to `start`, with our address
behind the others. -/
def synackSourceExt (mem : List UInt8) (start : Nat) (ext : List UInt8) (locAddr : NetAddr) :
    Except Fault (List UInt8) := do
  let mem ← writeBytes mem start ext
  writeSourceExt mem [] locAddr.toList start true (ext.length + 4)

def pushSourceExt (rskb : SkBuff) (srcExt : Option (List UInt8))
    (locAddr : NetAddr) : Except Fault (Nat × SkBuff) :=
  match srcExt with
  | none => .ok (0, rskb)
  | some ext => do
    let (old, rskb) ← skbPush rskb (ext.length + 4)
    let start := rskb.headroom.length
    let mem ← synackSourceExt (rskb.headroom ++ old) start ext locAddr
    .ok (ext.length + 4,
      { rskb with
        headroom := mem.take start
        data := mem.drop start ++ rskb.data })

def synackSock (rsk : RequestSock) (protocol : UInt8) : SalSock :=
  answerSock rsk.localFlowid rsk.peerFlowid protocol rsk.localNonce
    (rsk.rcvSeq + 1)

def synackCb (rsk : RequestSock) : SalSkbCb := ⟨UInt8.ofNat (svhSyn + svhAck), rsk.issSeq⟩

def buildSynack (rskb : SkBuff) (rsk : RequestSock) (hdr : SalHeader) :
    Except Fault SkBuff := do
  let (srcLen, rskb) ← pushSourceExt rskb hdr.srcExt rsk.locAddr
  pushAnswer rskb (synackSock rsk hdr.protocol) (synackCb rsk) srcLen

def servalSalSendSynack (env : SalEnv) (host : SalHost) (rsk : RequestSock) (skb : RcvSkb) :
    Except Fault (Int × SalHost) :=
  if !env.alloc host.tick then
    .ok (-ENOMEM, host.bump)
  else
    let (err, data) := env.transport.connBuildSynack host.tick
    if err ≠ 0 then
      .ok (0, host.bump)
    else do
      let rskb ← buildSynack ⟨⟨0, 0⟩, env.headroom host.tick, data⟩ rsk skb.hdr
      let sal ← servalSalSendCheck env.address rskb.data
      let host ← buildAndSendPkt env host skb.dev rsk.replySaddr rsk.rmtAddr
          { rskb with data := sal }
      .ok (0, host)

/-! ## What the functions leave as it was -/

variable {env : SalEnv} {host host' : SalHost} {err : Int}

def FromTransport (env : SalEnv) (host : SalHost) (p : WirePacket) : Prop :=
  ∃ data, Transmitted env host (ctrlSkb 0 0 data) p

theorem xmitAll_sends {packets : List (List UInt8)} (run : xmitAll env host packets = .ok host') :
    Sends (FromTransport env host) host host' := by
  induction packets generalizing host with
  | nil =>
    cases run
    exact .refl
  | cons data rest ih =>
    obtain ⟨⟨err, middle⟩, sent, run⟩ := of_bind run
    have first := servalSalTransmitSkb_sends sent
    have others := ih run
    refine (first.mono fun p one => ⟨data, one⟩).trans ?_
    refine others.mono fun p one => ?_
    obtain ⟨data', one⟩ := one
    exact ⟨data', one.of_after first⟩

theorem servalSalSendAck_sends (run : servalSalSendAck env host = .ok (err, host')) :
    Sends (Transmitted env host (ctrlSkb svhAck host.sk.sndNxt [])) host
      host' := by
  rw [servalSalSendAck] at run
  split_ifs at run with failed
  · cases run
    exact .bump
  · exact Sends.bump.trans (servalSalTransmitSkb_sends run)

theorem servalSalSendActiveReset_sends (run : servalSalSendActiveReset env host = .ok host') : Sends
      (Transmitted env host (ctrlSkb (svhRst + svhAck) host.sk.sndNxt []))
      host host' := by
  rw [servalSalSendActiveReset] at run
  split_ifs at run with failed
  · cases run
    exact .bump
  · obtain ⟨⟨err, middle⟩, sent, run⟩ := of_bind run
    cases run
    exact Sends.bump.trans (servalSalTransmitSkb_sends sent)

theorem servalSalWriteXmit_spec (run : servalSalWriteXmit env host = .ok (err, host')) : ∃ middle,
      Sends
        (fun p => ∃ skb ∈ host.sk.ctrlUnsent, Transmitted env host skb p)
        host middle ∧
      (host' = middle ∨
        ∃ skb rest, host.sk.ctrlUnsent = skb :: rest ∧
          host' = middle.withSk
              { middle.sk with
                ctrlSent := host.sk.ctrlSent ++ [skb]
                ctrlUnsent := rest }) := by
  rw [servalSalWriteXmit] at run
  cases queue : host.sk.ctrlUnsent with
  | nil =>
    rw [queue] at run
    cases run
    exact ⟨host, .refl, .inl rfl⟩
  | cons skb rest =>
    rw [queue] at run
    simp only at run
    split_ifs at run with window
    · obtain ⟨⟨err', middle⟩, sent, run⟩ := of_bind run
      have sends := servalSalTransmitSkb_sends sent
      refine ⟨middle, sends.mono fun p one =>
        ⟨skb, List.mem_cons_self, one⟩, ?_⟩
      split_ifs at run with failed
      · cases run
        exact .inl rfl
      · cases run
        obtain ⟨_, _, _, _, rfl, -⟩ := sends
        exact .inr ⟨skb, rest, rfl, rfl⟩
    · cases run
      exact ⟨host, .refl, .inl rfl⟩

theorem servalSalQueueAndPush_frame {skb : CtrlSkb}
    (run : servalSalQueueAndPush env host skb = .ok (err, host')) :
    ∃ saddr daddr una retransmits timer sent unsent packets tick, host' =
        { host with
          sk :=
            { host.sk with
              inetSaddr := saddr
              inetDaddr := daddr
              sndUna := una
              retransmits := retransmits
              retransmitTimer := timer
              ctrlSent := sent
              ctrlUnsent := unsent }
          out := host.out ++ packets
          tick := tick } := by
  obtain ⟨middle, ⟨_, _, _, _, rfl, -⟩, rfl | ⟨_, _, -, rfl⟩⟩ := servalSalWriteXmit_spec run
  · exact ⟨_, _, _, _, _, _, _, _, _, rfl⟩
  · exact ⟨_, _, _, _, _, _, _, _, _, rfl⟩

/-- An acknowledgement takes away the packets in front of the first that it
does not cover. -/
theorem cleanLoop_acked (ackno : UInt32) (unsent sent : List CtrlSkb) (una : UInt32)
    (flags : UInt8) :
    (cleanLoop ackno false unsent sent una flags).1 =
      sent.dropWhile fun skb => after ackno skb.cb.verno := by
  induction sent generalizing una flags with
  | nil => rfl
  | cons skb rest ih =>
    rw [cleanLoop]
    by_cases covered : after ackno skb.cb.verno = true
    · simp only [covered, Bool.or_false, if_true, List.dropWhile_cons]
      rw [ih]
    · simp only [covered, Bool.or_false, Bool.false_eq_true, if_false, List.dropWhile_cons]

/-! ## Answers, and the end of a socket -/

theorem buildAndSendPkt_sends {sent : WirePacket → Prop} {dev : Ptr} {saddr daddr : NetAddr}
    {skb : SkBuff}
    (each : ∀ saddr', (saddr ≠ zeroAddr → saddr' = saddr) → sent ⟨saddr', daddr, skb.data⟩)
    (run : buildAndSendPkt env host dev saddr daddr skb = .ok host') :
    Sends sent host host' := by
  obtain ⟨-, -, run⟩ := of_bind run
  split at run
  · cases run
    exact .bump
  cases run
  refine ⟨_, _, _, _, rfl, ?_, Nat.le_succ host.tick⟩
  intro p member
  rw [List.mem_singleton] at member
  subst member
  apply each
  intro given
  rw [if_neg given]

def IsReset (env : SalEnv) (skb : RcvSkb) (p : WirePacket) : Prop :=
  p.daddr = skb.saddr ∧
    ∃ headroom rskb, pushAnswer ⟨⟨0, 0⟩, headroom, []⟩ (resetSock skb.hdr) (resetCb skb.hdr)
        0 = .ok rskb ∧ servalSalSendCheck env.address rskb.data = .ok p.sal

theorem servalSalSendReset_sends {skb : RcvSkb}
    (run : servalSalSendReset env host skb = .ok host') :
    Sends (IsReset env skb) host host' := by
  rw [servalSalSendReset] at run
  split_ifs at run with isReset failed
  · cases run
    exact .refl
  · cases run
    exact .bump
  obtain ⟨rskb, pushed, run⟩ := of_bind run
  obtain ⟨sal, checked, run⟩ := of_bind run
  exact buildAndSendPkt_sends (fun saddr _ =>
    ⟨rfl, env.headroom host.tick, rskb, pushed, checked⟩) run

def IsSynack (env : SalEnv) (rsk : RequestSock) (hdr : SalHeader) (p : WirePacket) :
    Prop :=
  p.daddr = rsk.rmtAddr ∧ (rsk.replySaddr ≠ zeroAddr → p.saddr = rsk.replySaddr) ∧
    ∃ headroom data rskb, buildSynack ⟨⟨0, 0⟩, headroom, data⟩ rsk hdr = .ok rskb ∧
      servalSalSendCheck env.address rskb.data = .ok p.sal

theorem servalSalSendSynack_sends {rsk : RequestSock} {skb : RcvSkb}
    (run : servalSalSendSynack env host rsk skb = .ok (err, host')) :
    Sends (IsSynack env rsk skb.hdr) host host' := by
  rw [servalSalSendSynack] at run
  split_ifs at run with failed
  · cases run
    exact .bump
  dsimp only at run
  split_ifs at run with refused
  · cases run
    exact .bump
  obtain ⟨rskb, built, run⟩ := of_bind run
  obtain ⟨sal, checked, run⟩ := of_bind run
  obtain ⟨last, sent, run⟩ := of_bind run
  cases run
  exact buildAndSendPkt_sends (fun saddr source =>
    ⟨rfl, source, env.headroom host.tick, _, rskb, built, checked⟩) sent

/-- Only a socket that is known by its service changes the table. -/
theorem servalSockUnhash_spec (run : servalSockUnhash host = .ok host') : ∃ keyLen table, host' =
        { host with sk := { host.sk with hashKeyLen := keyLen }, table } ∧
      (host.sk.skState ≠ .listen → host.sk.skState ≠ .init → table = host.table) := by
  rw [servalSockUnhash] at run
  split at run
  · cases run
    exact ⟨host.sk.hashKeyLen, host.table, rfl, fun _ _ => rfl⟩
  split at run
  · rename_i service
    obtain ⟨⟨stats, table⟩, -, run⟩ := of_bind run
    cases run
    refine ⟨0, table, rfl, ?_⟩
    intro notListen notInit
    rcases service with listen | init
    · exact absurd listen notListen
    · exact absurd init notInit
  · cases run
    exact ⟨0, host.table, rfl, fun _ _ => rfl⟩

/-- The queue of a socket that nobody holds is emptied. -/
theorem servalSalDone_spec (run : servalSalDone host = .ok host') :
    ∃ keyLen timer sent unsent table, host' =
        { host with
          sk :=
            { host.sk with
              hashKeyLen := keyLen
              skState := .closed
              retransmitTimer := false
              skShutdown := shutdownMask
              twTimer := timer
              ctrlSent := sent
              ctrlUnsent := unsent }
          table } ∧ (host.sk.skState ≠ .listen → host.sk.skState ≠ .init → table = host.table) ∧
      (sent = host.sk.ctrlSent ∧ unsent = host.sk.ctrlUnsent ∨
        host.sk.dead = true ∧ sent = [] ∧ unsent = []) := by
  obtain ⟨middle, unhashed, run⟩ := of_bind run
  cases run
  obtain ⟨keyLen, table, rfl, same⟩ := servalSockUnhash_spec unhashed
  rw [servalSockDone]
  split
  · rename_i dead
    exact ⟨_, _, _, _, _, rfl, same, .inr ⟨dead, rfl, rfl⟩⟩
  · exact ⟨_, _, _, _, _, rfl, same, .inl ⟨rfl, rfl⟩⟩

theorem servalSalDone_closed (run : servalSalDone host = .ok host') :
    host'.sk.skState = .closed := by
  obtain ⟨_, _, _, _, _, rfl, -⟩ := servalSalDone_spec run
  rfl

theorem servalSalRcvReset_closed (run : servalSalRcvReset host = .ok host') :
    host'.sk.skState = .closed := by
  rw [servalSalRcvReset] at run
  split_ifs at run with closed
  · cases run
    exact closed
  · exact servalSalDone_closed run

end Serval
