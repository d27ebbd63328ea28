import Serval.Sal.Control
import Serval.Support.Run

/-!
# The state machine

`serval_sal_state_process` and the handlers of the states, for a packet whose
header was accepted. The codes that the handlers return are only logged, so
they are left out where no other handler looks at them.
-/

namespace Serval

open Serval.Support

def hasValidVerno (seq : UInt32) (sk : ServalSock) : Bool :=
  sk.skState = .listen || sk.skState = .request || !before seq sk.rcvNxt

/-- The nonce is not compared for a packet with the SYN bit. -/
def hasValidControlExtension (sk : ServalSock) (hdr : SalHeader) : Bool :=
  match hdr.ctrlExt with
  | none => false
  | some ext =>
    32 ≤ hdr.length && ext.extLength = 20 && (ext.syn || ext.nonce = sk.peerNonce)

/-- `has_service_extension_src`. -/
def hasServiceExtension (hdr : SalHeader) : Bool :=
  match hdr.srvExt0 with
  | none => false
  | some ext => 48 ≤ hdr.length && ext.extLength = 36

/-! ## The addresses of a source extension -/

def sourceExtAddr (ext : List UInt8) (n : Nat) : NetAddr := bytesAt ext (salSourceExtGetAddr 0 n) 4

def sourceExtLastAddr (ext : List UInt8) : NetAddr :=
  sourceExtAddr ext ((salSourceExtNumAddrs (ext.getD 1 0)).toNat - 1)

/-! ## Requests at a listener -/

section

variable (sk : ServalSock) (rsk : RequestSock)

/-- The request socket for a request that arrived at a device with the
address `myaddr`. -/
def fillRequestSock (skb : RcvSkb) (ctrl : ControlExt) (srv : ServiceExt)
    (myaddr : NetAddr) : RequestSock :=
  let rsk :=
    { rsk with
      peerFlowid := skb.hdr.srcFlowid
      targetSrvid := srv.srvid
      peerNonce := ctrl.nonce
      rcvSeq := ctrl.verno
      locAddr := myaddr }
  match skb.hdr.srcExt with
  | some ext =>
    { rsk with
      rmtAddr := sourceExtAddr ext 0
      replySaddr := if skb.udp then sourceExtAddr ext 1 else myaddr }
  | none =>
    { rsk with
      rmtAddr := skb.saddr
      replySaddr := if skb.broadcast then myaddr else skb.daddr }

def addRequest : ServalSock :=
  { sk with
    synQueue := rsk :: sk.synQueue
    ackBacklog := sk.ackBacklog + 1 }

def servalSalRcvSyn (env : SalEnv) (host : SalHost) (skb : RcvSkb) :
    Except Fault SalHost :=
  if !hasValidControlExtension host.sk skb.hdr || !hasServiceExtension skb.hdr then
    .ok host
  else if host.sk.maxAckBacklog ≤ host.sk.ackBacklog then
    .ok host
  else
    match skb.hdr.ctrlExt, skb.hdr.srvExt0, env.devAddr skb.dev, env.reqsk host.tick with
    | some ctrl, some srv, some myaddr, some fresh =>
      let rsk := fillRequestSock fresh skb ctrl srv myaddr
      if env.transport.connRequest host.tick ≠ 0 then
        .ok host.bump
      else do
        let (_, host) ← servalSalSendSynack env (host.bump.withSk (addRequest host.sk rsk))
            rsk skb
        .ok host
    | _, _, _, _ => .ok host.bump

def servalSalFindRsk (hdr : SalHeader) :
    Option RequestSock :=
  (sk.synQueue ++ sk.acceptQueue).find? fun rsk =>
    rsk.peerFlowid = hdr.srcFlowid

/-- The new socket for a request: a copy of the listener with a new state. -/
def respondSock : ServalSock :=
  servalSockHash
    { sk with
      skState := .respond
      localFlowid := rsk.localFlowid
      peerFlowid := rsk.peerFlowid
      localSrvid := rsk.targetSrvid
      peerSrvid := rsk.peerSrvid
      localNonce := rsk.localNonce
      peerNonce := rsk.peerNonce
      inetDaddr := rsk.rmtAddr
      inetSaddr := rsk.locAddr
      sndIss := rsk.issSeq
      sndUna := rsk.issSeq
      sndNxt := rsk.issSeq + 1
      sndWnd := 1
      rcvNxt := rsk.rcvSeq + 1
      ackBacklog := 0
      salState := .initial
      hashKey := false
      hashKeyLen := 0
      retransmitTimer := false
      twTimer := false
      retransmits := 0
      synQueue := []
      acceptQueue := []
      ctrlSent := []
      ctrlUnsent := [] }

/-- The request that an acknowledgement belongs to, if it fits in every
number. -/
def matchRequest (hdr : SalHeader) : Option RequestSock :=
  (sk.synQueue.find? fun rsk => rsk.localFlowid = hdr.dstFlowid).filter
    fun rsk =>
      hdr.ctrlExt.map ControlExt.nonce = some rsk.peerNonce &&
        hdr.verno = rsk.rcvSeq + 1 && hdr.ackno = rsk.issSeq + 1

def moveRequest : ServalSock :=
  { sk with
    synQueue := sk.synQueue.eraseP fun other => other.localFlowid = rsk.localFlowid
    acceptQueue := sk.acceptQueue ++ [rsk] }

end

/-- `serval_sal_request_sock_handle`: the new socket, if there is one. -/
def servalSalRequestSockHandle (env : SalEnv) (host : SalHost) (skb : RcvSkb) :
    Option ServalSock × SalHost :=
  match matchRequest host.sk skb.hdr with
  | none => (none, host)
  | some rsk =>
    if !env.alloc host.tick || env.transport.connChildSock host.tick < 0 then
      (none, host.bump)
    else
      (some (respondSock host.sk rsk), host.bump.withSk (moveRequest host.sk rsk))

/-! ## Acknowledgements and migrations -/

def RsynState.afterAck : RsynState → RsynState
  | .recv => .initial
  | .sentRecv => .sent
  | state => state

section

variable (sk : ServalSock)

def takeMigDaddr : ServalSock :=
  { sk with
    salState := sk.salState.afterAck
    inetDaddr := sk.migDaddr
    migDaddr := zeroAddr }

def acceptsAck (hdr : SalHeader) : Bool :=
  hdr.hasAck && !before hdr.ackno sk.sndUna && !after hdr.ackno sk.sndNxt

def ackedSk (ackno : UInt32) : ServalSock :=
  { (servalSalCleanRtxQueue sk ackno false).1 with sndUna := ackno }

/-- The result is `true` when the source returns 0. An acknowledgement
without RSYN also completes a migration of the peer. -/
def servalSalAckProcess (env : SalEnv) (host : SalHost) (hdr : SalHeader) :
    Except Fault (Bool × SalHost) :=
  if !acceptsAck host.sk hdr then
    .ok (false, host)
  else
    let sk := ackedSk host.sk hdr.ackno
    if (sk.salState = .recv ∨ sk.salState = .sentRecv) ∧ !hdr.hasRsyn then do
      let host ← xmitAll env (host.bump.withSk (takeMigDaddr sk))
          (env.transport.migrationCompleted host.tick)
      .ok (true, host)
    else
      .ok (true, host.withSk sk)

def takeMigDev (saddr : Option NetAddr) : ServalSock :=
  { sk with
    salState := .initial
    inetSaddr := saddr.getD sk.inetSaddr
    boundDevIf := sk.migDevIf
    migDevIf := 0 }

def noteMigDaddr (saddr : NetAddr) : ServalSock := { sk with salState := .recv, migDaddr := saddr }

def ServalSock.expect (verno : UInt32) : ServalSock := { sk with rcvNxt := verno + 1 }

def servalSalRcvRsynack (env : SalEnv) (host : SalHost) (skb : RcvSkb) :
    Except Fault SalHost :=
  match env.devByIndex host.sk.migDevIf with
  | none => .ok host
  | some dev =>
    match host.sk.salState with
    | .sent => do
      let host ← xmitAll env
          (host.bump.withSk (takeMigDev host.sk (env.devAddr dev)))
          (env.transport.migrationCompleted host.tick)
      let (_, host) ← servalSalSendAck env (host.withSk (host.sk.expect skb.hdr.verno))
      .ok host
    | .sentRecv => do
      let sk := noteMigDaddr host.sk skb.saddr
      let (_, host) ← servalSalSendAck env (host.withSk (sk.expect skb.hdr.verno))
      .ok host
    | _ => .ok host

def RsynState.afterRcv : RsynState → RsynState
  | .initial => .recv
  | .sent => .sentRecv
  | state => state

def migratingSk (saddr : NetAddr) : ServalSock :=
  { sk with salState := sk.salState.afterRcv, migDaddr := saddr }

def ServalSock.useVerno : ServalSock := { sk with sndNxt := sk.sndNxt + 1 }

def servalSalRcvRsyn (env : SalEnv) (host : SalHost) (skb : RcvSkb) :
    Except Fault SalHost :=
  if !hasValidControlExtension host.sk skb.hdr then
    .ok host
  else if host.sk.skState = .closed ∨ host.sk.skState = .listen ∨ host.sk.skState = .request then
    .ok host
  else
    let sk := (migratingSk host.sk skb.saddr).expect skb.hdr.verno
    if !env.alloc host.tick then
      .ok (host.bump.withSk sk)
    else do
      let (_, host) ← servalSalQueueAndPush env (host.bump.withSk sk.useVerno)
          (ctrlSkb (svhRsyn + svhAck) sk.sndNxt [])
      .ok host

def rcvShutdown : UInt8 := 1

def ServalSock.endRcv : ServalSock := { sk with skShutdown := sk.skShutdown ||| rcvShutdown }

end

/-- The result is `true` when the source returns 0. -/
def servalSalRcvFin (env : SalEnv) (host : SalHost) (skb : RcvSkb) :
    Except Fault (Bool × SalHost) :=
  if !hasValidControlExtension host.sk skb.hdr then
    .ok (false, host)
  else do
    let (err, host) ← servalSalSendAck env
        (host.withSk (host.sk.endRcv.expect skb.hdr.verno))
    .ok (err = 0, host)

/-! ## The handlers of the states -/

section

variable (env : SalEnv) (host : SalHost) (skb : RcvSkb)

def receiveIf (wanted : Bool) :
    Except Fault SalHost :=
  if wanted then runReply env host.bump (env.transport.receive host.tick)
  else .ok host

/-- `serval_sal_rcv_fin`, if there is a FIN. -/
def rcvFinIf : Except Fault (Bool × SalHost) :=
  if skb.hdr.hasFin then servalSalRcvFin env host skb else .ok (false, host)

def reackIf (fin : Bool) :
    Except Fault SalHost :=
  if fin then do
    let (_, host) ← servalSalSendAck env host
    .ok host
  else
    .ok host

def servalSalTimewait (state : SalState) : SalHost :=
  host.withSk { host.sk with skState := state, twTimer := true }

def servalSalConnectedStateProcess : Except Fault SalHost := do
  let (_, host) ← servalSalAckProcess env host skb.hdr
  let (close, host) ← rcvFinIf env host skb
  let host ← receiveIf env host (skb.hasTransportHdr || skb.hdr.hasFin)
  .ok (if close then host.setState .closewait else host)

def servalSalClosewaitStateProcess : Except Fault SalHost := do
  let host ← reackIf env host skb.hdr.hasFin
  let (_, host) ← servalSalAckProcess env host skb.hdr
  receiveIf env host skb.hasTransportHdr

def servalSalFinwait1StateProcess : Except Fault SalHost := do
  let (acked, host) ← servalSalAckProcess env host skb.hdr
  let (close, host) ← rcvFinIf env host skb
  let host :=
    if skb.hdr.hasFin then
      if close then
        if acked then servalSalTimewait host .timewait
        else host.setState .closing
      else host
    else if acked then servalSalTimewait host .finwait2
    else host
  receiveIf env host (skb.hasTransportHdr || skb.hdr.hasFin)

def servalSalFinwait2StateProcess : Except Fault SalHost := do
  let (close, host) ← rcvFinIf env host skb
  let host := if close then servalSalTimewait host .timewait else host
  receiveIf env host (skb.hasTransportHdr || skb.hdr.hasFin)

def servalSalClosingStateProcess : Except Fault SalHost := do
  let (acked, host) ← servalSalAckProcess env host skb.hdr
  let host := if acked then servalSalTimewait host .timewait else host
  let host ← reackIf env host skb.hdr.hasFin
  receiveIf env host skb.hasTransportHdr

def servalSalLastackStateProcess : Except Fault SalHost := do
  let host ← reackIf env host skb.hdr.hasFin
  let (acked, host) ← servalSalAckProcess env host skb.hdr
  let host ← receiveIf env host skb.hasTransportHdr
  if acked then servalSalDone host else .ok host

def saveResponse (sk : ServalSock) (skb : RcvSkb) : ServalSock :=
  { sk with
    boundDevIf := skb.ifindex
    inetDaddr :=
      match skb.hdr.srcExt with
      | some ext => sourceExtLastAddr ext
      | none => skb.saddr
    inetSaddr := skb.daddr
    peerNonce := (skb.hdr.ctrlExt.map ControlExt.nonce).getD sk.peerNonce
    peerFlowid := skb.hdr.srcFlowid
    rcvNxt := skb.hdr.verno + 1 }

def sendConnAck : Except Fault SalHost :=
  if !env.alloc host.tick then
    .ok host.bump
  else
    let (err, data) := env.transport.connBuildAck host.tick
    if err ≠ 0 then
      .ok host.bump
    else do
      let (_, host) ← servalSalTransmitSkb env host.bump
          (ctrlSkb (svhAck + svhConnAck) host.sk.sndNxt data) false
      .ok host

def servalSalRequestStateProcess : Except Fault SalHost :=
  if !hasValidControlExtension host.sk skb.hdr then
    .ok host
  else if !(skb.hdr.hasSyn && skb.hdr.hasAck) then
    .ok host
  else do
    let (acked, host) ← servalSalAckProcess env host skb.hdr
    if !acked then
      .ok host
    else do
      let reply := env.transport.requestState host.tick
      let host ← runReply env (host.bump.withSk (saveResponse host.sk skb)) reply
      if reply.ret ≠ 0 then .ok host
      else sendConnAck env (host.setState .connected)

def saveSource (sk : ServalSock) (skb : RcvSkb) : ServalSock :=
  { sk with boundDevIf := skb.ifindex, inetDaddr := skb.saddr }

def servalSalRespondStateProcess : Except Fault SalHost :=
  if !hasValidControlExtension host.sk skb.hdr then
    .ok host
  else do
    let (acked, host) ← servalSalAckProcess env host skb.hdr
    if !acked then
      .ok host
    else do
      let reply := env.transport.respondState host.tick
      let host ← runReply env (host.bump.withSk (saveSource host.sk skb)) reply
      if reply.ret ≠ 0 then .ok host
      else .ok (host.setState .connected)

def servalSalInitStateProcess : Except Fault SalHost :=
  if host.sk.hashKey && skb.hdr.srvExt0.isSome && skb.hdr.srvExt1.isSome then
    receiveIf env host skb.hasTransportHdr
  else
    .ok host

end

section

variable (listen : SalHost → RcvSkb → Except Fault SalHost) (env : SalEnv) (host : SalHost)
  (skb : RcvSkb)

def rcvMigration :
    Except Fault SalHost :=
  if skb.hdr.hasRsyn then
    if skb.hdr.hasAck then servalSalRcvRsynack env host skb
    else servalSalRcvRsyn env host skb
  else
    .ok host

/-- The handler of the socket's state; `listen` is that of a listener. -/
def stateSwitch : Except Fault SalHost :=
  match host.sk.skState with
  | .init =>
    if host.sk.skType = sockDgram then servalSalInitStateProcess env host skb
    else .ok host
  | .connected => servalSalConnectedStateProcess env host skb
  | .request => servalSalRequestStateProcess env host skb
  | .respond => servalSalRespondStateProcess env host skb
  | .listen => listen host skb
  | .finwait1 => servalSalFinwait1StateProcess env host skb
  | .finwait2 => servalSalFinwait2StateProcess env host skb
  | .closing => servalSalClosingStateProcess env host skb
  | .lastack => servalSalLastackStateProcess env host skb
  | .timewait => reackIf env host skb.hdr.hasFin
  | .closewait => servalSalClosewaitStateProcess env host skb
  | .closed => servalSalSendReset env host skb

def stateProcess : Except Fault SalHost :=
  if skb.hdr.ctrlExt.isSome && !hasValidVerno skb.hdr.verno host.sk then
    .ok host
  else if skb.hdr.hasRst then
    servalSalRcvReset host
  else do
    let host ← rcvMigration env host skb
    stateSwitch listen env host skb

/-- A new socket is not a listener, so that the recursion ends with it. -/
def servalSalChildProcess (child : ServalSock) (skb : RcvSkb) :
    Except Fault SalHost := do
  let done ← stateProcess (fun _ _ => .error .fuel) env
      { host with sk := child, children := [] } skb
  .ok { done with sk := host.sk, children := host.children ++ [done.sk] }

end

def servalSalListenStateProcess
    (env : SalEnv) (host : SalHost) (skb : RcvSkb) : Except Fault SalHost :=
  if skb.hdr.hasSyn && !skb.hdr.hasAck then
    match servalSalFindRsk host.sk skb.hdr with
    | some rsk => do
      let (_, host) ← servalSalSendSynack env host rsk skb
      .ok host
    | none => servalSalRcvSyn env host skb
  else if skb.hdr.hasAck then
    match servalSalRequestSockHandle env host skb with
    | (none, host) => .ok host
    | (some child, host) => servalSalChildProcess env host child skb
  else
    servalSalSendReset env host skb

def servalSalStateProcess (env : SalEnv) (host : SalHost) (skb : RcvSkb) : Except Fault SalHost :=
  stateProcess (servalSalListenStateProcess env) env host skb

/-! ## Calls of the user, and timers -/

section

variable (env : SalEnv) (host : SalHost)

/-- The transport protocol may defer the FIN until its own data is
acknowledged; a positive answer means that data was left unread. -/
def closeSend : Except Fault SalHost :=
  match env.transport.connClose with
  | none => do
    let (_, host) ← servalSalSendFin env host
    .ok host
  | some connClose => do
    let reply := connClose host.tick
    let host ← runReply env host.bump reply
    if 0 < reply.ret then do
      let host ← servalSockUnhash host
      servalSalSendActiveReset env (host.setState .closed)
    else
      .ok host

def servalSalClose : Except Fault SalHost :=
  match host.sk.skState with
  | .closewait => closeSend env (host.setState .lastack)
  | .connected | .respond => closeSend env (host.setState .finwait1)
  | .finwait1 | .finwait2 | .closing | .timewait => .ok host
  | _ => servalSalDone host

def svhRetrans : Nat := 128

def markRetrans (skb : CtrlSkb) : CtrlSkb :=
  { skb with cb.flags := skb.cb.flags ||| UInt8.ofNat svhRetrans }

def servalSalRexmit : Except Fault SalHost :=
  match host.sk.ctrlSent, host.sk.ctrlUnsent with
  | skb :: rest, _ => do
    let sk := { host.sk with ctrlSent := markRetrans skb :: rest }
    let (_, host) ← servalSalTransmitSkb env (host.withSk sk) (markRetrans skb) true
    .ok host
  | [], skb :: rest => do
    let sk := { host.sk with ctrlUnsent := markRetrans skb :: rest }
    let (_, host) ← servalSalTransmitSkb env (host.withSk sk) (markRetrans skb) true
    .ok host
  | [], [] => .ok host

def servalSalRexmitTimeout :
    Except Fault SalHost :=
  if host.sk.retransmits = env.maxRetransmits then
    servalSalDone host
  else do
    let host ← servalSalRexmit env host
    .ok (host.withSk
      { host.sk with
        retransmits := host.sk.retransmits + 1
        retransmitTimer := true })

def servalSalTimewaitTimeout : Except Fault SalHost :=
  servalSalDone (host.withSk { host.sk with twTimer := false })

/-- `serval_accept_dequeue`: the first request that has become a socket. -/
def servalAcceptDequeue : SalHost :=
  match host.sk.acceptQueue with
  | [] => host
  | _ :: rest =>
    host.withSk
      { host.sk with
        acceptQueue := rest
        ackBacklog := host.sk.ackBacklog - 1 }

end

/-! ## Rules for the parts -/

/-- What the packets, a FIN and a reset keep, a call of the transport protocol
keeps. -/
theorem runReply_keeps {env : SalEnv} {inv : SalHost → Prop} {reply : Reply} {host host' : SalHost}
    (sends :
      ∀ {host host' : SalHost}, inv host → Sends (FromTransport env host) host host' → inv host')
    (fin :
      reply.fin = true → ∀ {host host' : SalHost} {err : Int}, inv host →
        servalSalSendFin env host = .ok (err, host') → inv host')
    (reset :
      reply.reset = true → ∀ {host host' : SalHost}, inv host →
        servalSalRcvReset host = .ok host' → inv host')
    (start : inv host) (run : runReply env host reply = .ok host') :
    inv host' := by
  obtain ⟨first, early, run⟩ := of_bind run
  obtain ⟨second, finned, run⟩ := of_bind run
  obtain ⟨third, late, run⟩ := of_bind run
  have afterEarly := sends start (xmitAll_sends early)
  have afterFin : inv second := by
    rw [finIf] at finned
    split_ifs at finned with ends
    · obtain ⟨⟨err, middle⟩, sent, finned⟩ := of_bind finned
      cases finned
      exact fin ends afterEarly sent
    · cases finned
      exact afterEarly
  have afterLate := sends afterFin (xmitAll_sends late)
  split_ifs at run with resets
  · exact reset resets afterLate run
  · cases run
    exact afterLate

variable {env : SalEnv} {host host' : SalHost}

theorem servalSalRcvSyn_spec {skb : RcvSkb} (run : servalSalRcvSyn env host skb = .ok host') :
    (∃ tick, host.tick ≤ tick ∧ host' = { host with tick }) ∨
      ∃ ctrl srv myaddr fresh, skb.hdr.ctrlExt = some ctrl ∧ skb.hdr.srvExt0 = some srv ∧
        env.devAddr skb.dev = some myaddr ∧ env.reqsk host.tick = some fresh ∧
        Sends
          (IsSynack env (fillRequestSock fresh skb ctrl srv myaddr) skb.hdr)
          (host.bump.withSk (addRequest host.sk (fillRequestSock fresh skb ctrl srv myaddr)))
          host' := by
  rw [servalSalRcvSyn] at run
  split at run
  · cases run
    exact .inl ⟨host.tick, Nat.le_refl _, rfl⟩
  split at run
  · cases run
    exact .inl ⟨host.tick, Nat.le_refl _, rfl⟩
  split at run
  · rename_i ctrl srv myaddr fresh control service address request
    split at run
    · cases run
      exact .inl ⟨host.tick + 1, Nat.le_succ _, rfl⟩
    · obtain ⟨⟨err, last⟩, sent, run⟩ := of_bind run
      cases run
      exact .inr ⟨ctrl, srv, myaddr, fresh, control, service, address, request,
        servalSalSendSynack_sends sent⟩
  · cases run
    exact .inl ⟨host.tick + 1, Nat.le_succ _, rfl⟩

theorem ackedSk_ctrlSent (sk : ServalSock) (ackno : UInt32) : (ackedSk sk ackno).ctrlSent =
      sk.ctrlSent.dropWhile fun skb => after ackno skb.cb.verno :=
  cleanLoop_acked ackno sk.ctrlUnsent sk.ctrlSent sk.sndUna 0

/-- An acknowledgement is refused, it is taken, or it also completes a
migration of the peer. -/
theorem servalSalAckProcess_spec {hdr : SalHeader} {acked : Bool}
    (run : servalSalAckProcess env host hdr = .ok (acked, host')) :
    acked = acceptsAck host.sk hdr ∧
      (acked = false ∧ host' = host ∨
        acked = true ∧
          (host' = host.withSk (ackedSk host.sk hdr.ackno) ∨
            Sends (FromTransport env host)
              (host.bump.withSk (takeMigDaddr (ackedSk host.sk hdr.ackno)))
              host')) := by
  rw [servalSalAckProcess] at run
  split at run
  · rename_i refused
    cases run
    rw [Bool.not_eq_true'] at refused
    exact ⟨refused.symm, .inl ⟨rfl, rfl⟩⟩
  rename_i accepted
  have accepts : acceptsAck host.sk hdr = true := by simpa using accepted
  dsimp only at run
  split at run
  · obtain ⟨last, sent, run⟩ := of_bind run
    cases run
    exact ⟨accepts.symm, .inr ⟨rfl, .inr (xmitAll_sends sent)⟩⟩
  · cases run
    exact ⟨accepts.symm, .inr ⟨rfl, .inl rfl⟩⟩

theorem servalSalRequestSockHandle_spec {skb : RcvSkb} {child : Option ServalSock}
    (run : servalSalRequestSockHandle env host skb = (child, host')) :
    (child = none ∧ ∃ tick, host.tick ≤ tick ∧ host' = { host with tick }) ∨
      ∃ rsk, matchRequest host.sk skb.hdr = some rsk ∧ child = some (respondSock host.sk rsk) ∧
        host' = host.bump.withSk (moveRequest host.sk rsk) := by
  rw [servalSalRequestSockHandle] at run
  split at run
  · cases run
    exact .inl ⟨rfl, host.tick, Nat.le_refl _, rfl⟩
  rename_i rsk found
  split at run
  · cases run
    exact .inl ⟨rfl, host.tick + 1, Nat.le_succ _, rfl⟩
  · cases run
    exact .inr ⟨rsk, found, rfl, rfl⟩

/-- The packets that end the handshake carry the number of the next packet,
which is not used up. -/
theorem sendConnAck_sends (run : sendConnAck env host = .ok host') : Sends (fun p => ∃ data,
        Transmitted env host
          (ctrlSkb (svhAck + svhConnAck) host.sk.sndNxt data) p)
      host host' := by
  rw [sendConnAck] at run
  split at run
  · cases run
    exact .bump
  dsimp only at run
  split at run
  · cases run
    exact .bump
  · obtain ⟨⟨err, last⟩, sent, run⟩ := of_bind run
    cases run
    exact Sends.bump.trans ((servalSalTransmitSkb_sends sent).mono fun _ one => ⟨_, one⟩)

/-! ## A plain host

Sockets, packets and surroundings for runs on fixed inputs. -/

private def quietReply : Reply := ⟨[], false, [], false, 0⟩

def quietTransport : Transport where
  connBuildSyn _ := (0, [])
  connBuildSynack _ := (0, [])
  connBuildAck _ := (0, [])
  connRequest _ := 0
  connChildSock _ := 0
  requestState _ := quietReply
  respondState _ := quietReply
  receive _ := quietReply
  migrationCompleted _ := []
  connClose := none

def plainRsk : RequestSock where
  localFlowid := Vector.replicate 4 9
  peerFlowid := Vector.replicate 4 0
  peerSrvid := Vector.replicate 32 0
  targetSrvid := Vector.replicate 32 0
  localNonce := Vector.replicate 8 6
  peerNonce := Vector.replicate 8 0
  rcvSeq := 0
  issSeq := 100
  rmtAddr := zeroAddr
  locAddr := zeroAddr
  replySaddr := zeroAddr

def plainEnv : SalEnv where
  mode := .anycast
  random _ := 0
  alloc _ := true
  headroom _ := List.replicate 100 0xff
  reqsk _ := some plainRsk
  xmit _ := 0
  delay _ := 0
  address := 4
  devAddr _ := some ⟨#[10, 0, 0, 1], rfl⟩
  loopback := some 0
  devByIndex _ := none
  maxRetransmits := 15
  transport := quietTransport

def plainSock : ServalSock where
  skState := .connected
  skType := 1
  skProtocol := 6
  localFlowid := Vector.replicate 4 1
  peerFlowid := Vector.replicate 4 2
  localSrvid := Vector.replicate 32 3
  peerSrvid := Vector.replicate 32 4
  localNonce := Vector.replicate 8 5
  rcvNxt := 7
  dead := false
  skShutdown := 0
  boundDevIf := 1
  ackBacklog := 0
  maxAckBacklog := 4
  inetSaddr := ⟨#[10, 0, 0, 1], rfl⟩
  inetDaddr := zeroAddr
  salState := .initial
  finSent := false
  migDevIf := 0
  migDaddr := zeroAddr
  hashKey := true
  hashKeyLen := 4
  srvidPrefixBits := 0
  retransmitTimer := false
  twTimer := false
  retransmits := 0
  synQueue := []
  acceptQueue := []
  ctrlSent := []
  ctrlUnsent := []
  peerNonce := Vector.replicate 8 6
  sndIss := 9
  sndUna := 10
  sndNxt := 10
  sndWnd := 1

def rootTable (type : RuleType) (out : TargetOut) (dst : List UInt8) (taasAuth : UInt64 := 0) :
    ServiceTable where
  tree :=
    { heap := ⟨[some
          { parent := 0, left := none, right := none, ops := none
            priv := some
              { node := some 0
                targetSet := [⟨1, 1, 0, 1, [⟨type, 1, taasAuth, ⟨0, 0, 0, 0⟩, out, 0, [], dst⟩]⟩]
                count := 1 }
            prefixBits := 0, prefixSize := 0, prefixBytes := [] }]⟩
      root := some 0
      entries := 1
      destroyed := [] }
  services := 1

def plainHost (sk : ServalSock) (table : ServiceTable) : SalHost where
  sk := sk
  table := table
  children := []
  out := []
  tick := 0

def plainControl (verno ackno : UInt32) (nonce : Vector UInt8 8) : ControlExt where
  extLength := 20
  syn := false
  rsyn := false
  ack := false
  nack := false
  rst := false
  fin := false
  verno := verno
  ackno := ackno
  nonce := nonce

def ipv4 (a b c d : UInt8) : NetAddr := ⟨#[a, b, c, d], rfl⟩

def plainSkb (ctrl : ControlExt) : RcvSkb where
  hdr :=
    { srcFlowid := Vector.replicate 4 2
      dstFlowid := Vector.replicate 4 1
      protocol := 6
      length := 32
      ctrlExt := some ctrl
      srvExt0 := none
      srvExt1 := none
      srcExt := none
      taasExt := none }
  saddr := ⟨#[10, 0, 0, 2], rfl⟩
  daddr := ⟨#[10, 0, 0, 1], rfl⟩
  data := []
  udp := false
  broadcast := false
  dev := 1
  ifindex := 1

def plainConnection : SalHost :=
  plainHost plainSock (rootTable .forward (.dev 1 "eth0") [10, 0, 0, 2])

end Serval
