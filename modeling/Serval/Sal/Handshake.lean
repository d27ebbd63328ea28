import Serval.Sal.Parties
import Serval.Support.Run

/-!
# Handshakes

A client and a listener that exchange packets over a network that loses,
repeats, delays and reorders them.
-/

open Serval.Support

namespace Serval

/-- `requests` are all requests that have been in the queue of the
listener. -/
structure Handshake where
  client : SalHost
  server : SalHost
  requests : List RequestSock

inductive HandshakeEvent
  | client (event : SockEvent)
  | listener (skb : RcvSkb)
  | accept
  | child (index : Nat) (event : SockEvent)
  | table (table : ServiceTable)

def childStep (env : SalEnv) (server : SalHost) (index : Nat) (event : SockEvent) :
    Except Fault SalHost :=
  match server.children[index]? with
  | none => .ok server
  | some child => do
    let done ← sockStep env { server with sk := child, children := [] } event
    .ok { done with
      sk := server.sk, children := server.children.set index done.sk }

def handshakeStep (cenv senv : SalEnv) (s : Handshake) : HandshakeEvent → Except Fault Handshake
  | .client event => do
    let client ← sockStep cenv s.client event
    .ok { s with client }
  | .listener skb => do
    let server ← servalSalStateProcess senv s.server skb
    .ok { s with server, requests := server.sk.synQueue ++ s.requests }
  | .accept => .ok { s with server := servalAcceptDequeue s.server }
  | .child index event => do
    let server ← childStep senv s.server index event
    .ok { s with server }
  | .table table => .ok { s with server := { s.server with table } }

def Delivered (out : List WirePacket) (skb : RcvSkb) : Prop := ∃ p ∈ out, p.hdr = some skb.hdr

private def SockEvent.honest (out : List WirePacket) : SockEvent → Prop
  | .receive skb => Delivered out skb
  | .transport _ | .rexmit | .table _ => True
  | _ => False

instance (out : List WirePacket) (skb : RcvSkb) : Decidable (Delivered out skb) :=
  inferInstanceAs (Decidable (∃ p ∈ out, p.hdr = some skb.hdr))

instance (out : List WirePacket) : (event : SockEvent) → Decidable (event.honest out)
  | .receive skb => inferInstanceAs (Decidable (Delivered out skb))
  | .transport _ | .rexmit | .table _ => .isTrue trivial
  | .connect _ | .release | .migrate _ | .timewait => .isFalse id

/-- Packets come from the other host. Which of its sockets gets one is left
open, but for a listener that is closed. -/
def handshakeAllowed (s : Handshake) : HandshakeEvent → Prop
  | .client event => event.honest s.server.out
  | .listener skb =>
    s.server.sk.skState = .listen ∧ Delivered s.client.out skb
  | .child _ event => event.honest s.client.out
  | .accept | .table _ => True

instance (s : Handshake) : (event : HandshakeEvent) → Decidable (handshakeAllowed s event)
  | .client event => inferInstanceAs (Decidable (event.honest s.server.out))
  | .listener skb =>
    inferInstanceAs
      (Decidable (s.server.sk.skState = .listen ∧ Delivered s.client.out skb))
  | .child _ event => inferInstanceAs (Decidable (event.honest s.client.out))
  | .accept | .table _ => .isTrue trivial

/-- The client has just called `connect`, and the listener has heard of nobody
yet. -/
structure Handshake.Begins (cenv : SalEnv) (s : Handshake) : Prop where
  connects :
    ∃ fresh srvid err, fresh.sk.skState = .init ∧ fresh.sk.ctrlQueue = [] ∧ fresh.out = [] ∧
        servalConnect cenv fresh srvid = .ok (err, s.client)
  listens : s.server.sk.skState = .listen
  waiting : s.server.sk.synQueue = [] ∧ s.server.sk.acceptQueue = []
  children : s.server.children = []
  out : s.server.out = []
  requests : s.requests = []

def Handshake.NoFin (s : Handshake) : Prop :=
  s.client.sk.finSent = false ∧
    ∀ child ∈ s.server.children, child.finSent = false

section

variable {env : SalEnv} {host host' : SalHost} {err : Int} {owner : Party}

private theorem Steady.writeXmit (steady : Steady owner host.sk)
    (run : servalSalWriteXmit env host = .ok (err, host')) :
    Proceeds owner none host host' := by
  have queue := servalSalWriteXmit_ctrlQueue run
  obtain ⟨middle, sends, moved⟩ := servalSalWriteXmit_spec run
  have own : ∀ p, (∃ skb ∈ host.sk.ctrlUnsent, Transmitted env host skb p) →
        Tells (FromParty owner) p := by
    intro p sent
    obtain ⟨skb, waits, transmitted⟩ := sent
    exact OwnPacket.tells ⟨skb, .queued (List.mem_append_right _ waits), transmitted⟩ steady
  have start : Proceeds owner none host host := ⟨steady, .refl, [], by simp, by simp⟩
  obtain ⟨still, advances, out⟩ := start.sends own sends
  rcases moved with rfl | ⟨skb, rest, -, rfl⟩
  · exact ⟨still, advances, out⟩
  · refine ⟨⟨still.party, ?_⟩, advances.of_same rfl rfl, out⟩
    rw [queue]
    exact steady.queue

private theorem servalSalSendSyn_opens
    {verno : UInt32} (queue : host.sk.ctrlQueue = []) (out : host.out = [])
    (run : servalSalSendSyn env host verno = .ok (err, host')) :
    Steady host'.sk.party host'.sk ∧ host'.sk.skState = host.sk.skState ∧
      ∀ p ∈ host'.out, Tells (FromParty host'.sk.party) p := by
  have silent : Steady host.bump.sk.party host.bump.sk ∧ host.bump.sk.skState = host.sk.skState ∧
        ∀ p ∈ host.bump.out, Tells (FromParty host.bump.sk.party) p := by
    refine ⟨⟨rfl, ?_⟩, rfl, ?_⟩
    · rw [show host.bump.sk.ctrlQueue = [] from queue]
      simp
    · rw [show host.bump.out = [] from out]
      simp
  rw [servalSalSendSyn] at run
  split at run
  · cases run
    exact silent
  dsimp only at run
  split at run
  · cases run
    exact silent
  generalize (env.transport.connBuildSyn host.tick).2 = data at run
  obtain ⟨noneSent, noneUnsent⟩ := List.append_eq_nil_iff.mp queue
  let sk := { host.sk with sndNxt := verno + 1 }
  let skb := ctrlSkb svhSyn verno data
  have alone : (enqueue sk skb).ctrlQueue = [skb.overriding []] := by
    rw [ServalSock.ctrlQueue, enqueue_ctrlSent, enqueue_ctrlUnsent,
      show sk.ctrlUnsent = [] from noneUnsent,
      show sk.ctrlSent = [] from noneSent]
    rfl
  have steady : Steady sk.party (enqueue sk skb) := by
    refine ⟨rfl, ?_⟩
    rw [alone]
    intro other single
    rw [List.mem_singleton.mp single]
    exact ⟨by show hasFlag (UInt8.ofNat svhSyn ||| 0) svhRsyn = false; decide,
      by show hasFlag (UInt8.ofNat svhSyn ||| 0) svhFin = false; decide,
      fun _ => rfl⟩
  obtain ⟨still, -, packets, sent, each⟩ :=
    @Steady.writeXmit env (host.bump.withSk (enqueue sk skb)) host' err
      sk.party steady run
  rw [still.party]
  refine ⟨still, (servalSalQueueAndPush_stage run).skState, ?_⟩
  rw [sent, show (host.bump.withSk (enqueue sk skb)).out = [] from out]
  exact each

private theorem servalConnect_opens {fresh : SalHost} {srvid : Vector UInt8 32}
    (queue : fresh.sk.ctrlQueue = []) (out : fresh.out = [])
    (run : servalConnect env fresh srvid = .ok (err, host)) :
    Steady host.sk.party host.sk ∧ (host.sk.skState = .request ∨ host.sk.skState = .closed) ∧
      ∀ p ∈ host.out, Tells (FromParty host.sk.party) p := by
  obtain ⟨⟨err', middle⟩, sent, run⟩ := of_bind run
  generalize hash :
    servalSockHash { fresh.sk with skState := .request, peerSrvid := srvid } = sk at sent
  have hashed : sk.ctrlQueue = [] ∧ sk.skState = .request := by
    rw [← hash, servalSockHash]
    split <;> exact ⟨queue, rfl⟩
  obtain ⟨steady, state, told⟩ :=
    @servalSalSendSyn_opens env (fresh.withSk sk) middle err' sk.sndIss
      hashed.1 out sent
  dsimp only at run
  split at run
  · obtain ⟨unhashed, gone, run⟩ := of_bind run
    cases run
    obtain ⟨keyLen, table, rfl, -⟩ := servalSockUnhash_spec gone
    exact ⟨⟨rfl, steady.queue⟩, .inr rfl, told⟩
  · cases run
    exact ⟨steady, .inl (state.trans hashed.2), told⟩

end

structure ChildOf (rsk : RequestSock) (child : ServalSock) : Prop where
  steady : Steady rsk.party child
  peer : child.peer = rsk.caller
  state : child.skState = .respond ∨ child.skState = .connected ∨ child.skState = .closed

theorem ChildOf.handshaking {rsk : RequestSock} {child : ServalSock} (made : ChildOf rsk child) :
    handshaking child.skState = true := by
  rcases made.state with state | state | state <;> rw [state] <;> rfl

private theorem ChildOf.proceeds {rsk : RequestSock} {heard : Option Party} {host host' : SalHost}
    (made : ChildOf rsk host.sk)
    (proceeds : Proceeds rsk.party heard host host') :
    ChildOf rsk host'.sk := by
  obtain ⟨steady, advances, -⟩ := proceeds
  have notRequest : host.sk.skState ≠ .request := by
    rcases made.state with state | state | state <;> rw [state] <;> decide
  refine ⟨steady, ?_, ?_⟩
  · rcases advances.peer with ⟨same, -⟩ | ⟨request, -⟩
    · exact same.trans made.peer
    · exact absurd request notRequest
  · rcases advances.state with same | closed | ⟨connected, -⟩
    · rw [same]
      exact made.state
    · exact .inr (.inr closed)
    · exact .inr (.inl connected)

private theorem ChildOf.respondSock (sk : ServalSock) (rsk : RequestSock) :
    ChildOf rsk (respondSock sk rsk) := by
  obtain ⟨party, peer, state, queue⟩ := respondSock_parties sk rsk
  refine ⟨⟨party, ?_⟩, peer, .inl state⟩
  rw [queue]
  simp

/-- What the listener has made of a packet; `requests` are those that have
been in its queue before. -/
structure Listened (caller : Party) (requests : List RequestSock) (host host' : SalHost) :
    Prop where
  known : ∀ rsk ∈ host'.sk.synQueue ++ host'.sk.acceptQueue, rsk ∈ host'.sk.synQueue ++ requests
  called : ∀ rsk ∈ host'.sk.synQueue, rsk ∈ requests ∨ rsk.caller = caller
  out :
    ∃ packets, host'.out = host.out ++ packets ∧ ∀ p ∈ packets,
      Tells (fun hdr => ∃ rsk ∈ host'.sk.synQueue ++ requests, FromParty rsk.party hdr) p
  children : ∀ child ∈ host'.children, child ∈ host.children ∨ ∃ rsk ∈ requests, ChildOf rsk child

section

variable {env : SalEnv} {host host' : SalHost} {skb : RcvSkb} {caller : Party}
  {requests : List RequestSock}
  (known : ∀ rsk ∈ host.sk.synQueue ++ host.sk.acceptQueue, rsk ∈ requests)

include known

private theorem Listened.of_sends {sent : WirePacket → Prop}
    (tells : ∀ p, sent p → Tells (fun hdr => ∃ rsk ∈ requests, FromParty rsk.party hdr) p)
    (sends : Sends sent host host') :
    Listened caller requests host host' := by
  obtain ⟨_, _, packets, _, rfl, each, -⟩ := sends
  refine ⟨?_, ?_, ⟨packets, rfl, ?_⟩, fun child made => .inl made⟩
  · exact fun rsk waits => List.mem_append_right _ (known rsk waits)
  · exact fun rsk waits => .inl (known rsk (List.mem_append_left _ waits))
  · intro p inside
    refine (tells p (each p inside)).mono ?_
    rintro hdr ⟨rsk, asked, from'⟩
    exact ⟨rsk, List.mem_append_right _ asked, from'⟩

private theorem Listened.of_done (ended : servalSalDone host = .ok host') :
    Listened caller requests host host' := by
  obtain ⟨_, _, _, _, _, rfl, -⟩ := servalSalDone_spec ended
  refine ⟨?_, ?_, ⟨[], by simp, by simp⟩, fun child made => .inl made⟩
  · exact fun rsk waits => List.mem_append_right _ (known rsk waits)
  · exact fun rsk waits => .inl (known rsk (List.mem_append_left _ waits))

private theorem servalSalRcvSyn_listened (from' : FromParty caller skb.hdr)
    (run : servalSalRcvSyn env host skb = .ok host') :
    Listened caller requests host host' := by
  rcases servalSalRcvSyn_spec run with
    ⟨tick, later, rfl⟩ | ⟨ctrl, srv, myaddr, fresh, control, -, -, -, sends⟩
  · exact .of_sends known (fun _ => False.elim) (.addrs host.sk.inetSaddr host.sk.inetDaddr later)
  have caller_eq := fillRequestSock_caller control fresh srv myaddr
  rw [from'.speaker, Option.some.injEq] at caller_eq
  generalize fillRequestSock fresh skb ctrl srv myaddr = rsk at *
  obtain ⟨_, _, packets, _, rfl, each, -⟩ := sends
  refine ⟨?_, ?_, ⟨packets, rfl, ?_⟩, fun child made => .inl made⟩
  · intro other waits
    rcases List.mem_cons.mp waits with rfl | waits
    · exact List.mem_append_left _ List.mem_cons_self
    · exact List.mem_append_right _ (known other waits)
  · intro other waits
    rcases List.mem_cons.mp waits with rfl | waits
    · exact .inr caller_eq.symm
    · exact .inl (known other (List.mem_append_left _ waits))
  · intro p inside
    refine ((each p inside).tells from'.direct).mono ?_
    intro hdr told
    exact ⟨rsk, List.mem_append_left _ List.mem_cons_self, told⟩

/-- The last packet of the handshake makes a socket of a request. -/
theorem servalSalChildProcess_listened {rsk : RequestSock} (noRsyn : skb.hdr.hasRsyn = false)
    (noFin : skb.hdr.hasFin = false)
    (found : matchRequest host.sk skb.hdr = some rsk)
    (run :
      servalSalChildProcess env
        (host.bump.withSk (moveRequest host.sk rsk))
        (respondSock host.sk rsk) skb = .ok host')
    (noFins : ∀ child ∈ host'.children, child.finSent = false) :
    Listened caller requests host host' := by
  rw [matchRequest, Option.filter_eq_some_iff] at found
  have asked : rsk ∈ host.sk.synQueue := List.mem_of_find?_eq_some found.1
  have rskKnown := known rsk (List.mem_append_left _ asked)
  obtain ⟨done, processed, run⟩ := of_bind run
  cases run
  have made := ChildOf.respondSock host.sk rsk
  obtain ⟨n, -, acts⟩ := stateProcess_does (by
      show (respondSock host.sk rsk).skState ≠ .listen
      rw [(respondSock_parties host.sk rsk).2.2.1]
      decide) processed
  have proceeds := acts.proceeds (gentle_receiving made.handshaking noRsyn noFin)
      made.steady (noFins done.sk (by simp))
  obtain ⟨packets, out, each⟩ := proceeds.out
  have child := made.proceeds proceeds
  have left {other : RequestSock} (waits : other ∈ (moveRequest host.sk rsk).synQueue) :
      other ∈ host.sk.synQueue :=
    List.eraseP_sublist.subset waits
  refine ⟨?_, ?_, ⟨packets, out, ?_⟩, ?_⟩
  · intro other waits
    refine List.mem_append_right _ ?_
    rcases List.mem_append.mp waits with waits | accepted
    · exact known other (List.mem_append_left _ (left waits))
    · rcases List.mem_append.mp accepted with accepted | single
      · exact known other (List.mem_append_right _ accepted)
      · rw [List.mem_singleton.mp single]
        exact rskKnown
  · exact fun other waits =>
      .inl (known other (List.mem_append_left _ (left waits)))
  · intro p inside
    refine (each p inside).mono fun hdr told => ?_
    exact ⟨rsk, List.mem_append_right _ rskKnown, told⟩
  · intro other inside
    rcases List.mem_append.mp inside with before | single
    · exact .inl before
    · rw [List.mem_singleton.mp single]
      exact .inr ⟨rsk, rskKnown, child⟩

omit known

inductive Hears (env : SalEnv) (host : SalHost) (skb : RcvSkb) : SalHost → Prop
  | ends {host' : SalHost} (ended : servalSalDone host = .ok host') : Hears env host skb host'
  | repeats {host' : SalHost} {rsk : RequestSock} (syn : skb.hdr.hasSyn = true)
      (found : servalSalFindRsk host.sk skb.hdr = some rsk)
      (sends : Sends (IsSynack env rsk skb.hdr) host host') :
      Hears env host skb host'
  | asks {host' : SalHost} (syn : skb.hdr.hasSyn = true)
      (run : servalSalRcvSyn env host skb = .ok host') :
      Hears env host skb host'
  | makes {host' : SalHost} {rsk : RequestSock} (found : matchRequest host.sk skb.hdr = some rsk)
      (run :
        servalSalChildProcess env
          (host.bump.withSk (moveRequest host.sk rsk))
          (respondSock host.sk rsk) skb = .ok host') :
      Hears env host skb host'
  | refuses {host' : SalHost} (sends : Sends (IsReset env skb) host host') :
      Hears env host skb host'

private theorem servalSalListenStateProcess_hears
    (run : servalSalListenStateProcess env host skb = .ok host') :
    Hears env host skb host' := by
  rw [servalSalListenStateProcess] at run
  split at run
  · rename_i isSyn
    have syn := (Bool.and_eq_true_iff.mp isSyn).1
    split at run
    · rename_i rsk found
      obtain ⟨⟨err, last⟩, sent, run⟩ := of_bind run
      cases run
      exact .repeats syn found (servalSalSendSynack_sends sent)
    · exact .asks syn run
  split at run
  · rcases handled : servalSalRequestSockHandle env host skb with
      ⟨child, middle⟩
    rw [handled] at run
    rcases servalSalRequestSockHandle_spec handled with
      ⟨rfl, tick, later, rfl⟩ | ⟨rsk, found, rfl, rfl⟩
    · cases run
      exact .refuses (.addrs host.sk.inetSaddr host.sk.inetDaddr later)
    · exact .makes found run
  · exact .refuses (servalSalSendReset_sends run)

private theorem servalSalStateProcess_hears (listen : host.sk.skState = .listen)
    (run : servalSalStateProcess env host skb = .ok host') :
    ∃ middle, (middle = host ∨ rcvMigration env host skb = .ok middle) ∧
      Hears env middle skb host' := by
  have valid : hasValidVerno skb.hdr.verno host.sk = true := by simp [hasValidVerno, listen]
  rw [servalSalStateProcess, stateProcess, if_neg (by rw [valid]; simp)] at run
  split at run
  · rw [servalSalRcvReset, if_neg (by rw [listen]; decide)] at run
    exact ⟨host, .inl rfl, .ends run⟩
  · obtain ⟨middle, migrated, run⟩ := of_bind run
    simp only [stateSwitch, (rcvMigration_listens listen migrated).skState]
      at run
    exact ⟨middle, .inr migrated, servalSalListenStateProcess_hears run⟩

private theorem Hears.listened (hears : Hears env host skb host') (noRsyn : skb.hdr.hasRsyn = false)
    (noFin : skb.hdr.hasFin = false)
    (syn : skb.hdr.hasSyn = true → FromParty caller skb.hdr)
    (known : ∀ rsk ∈ host.sk.synQueue ++ host.sk.acceptQueue, rsk ∈ requests)
    (noFins : ∀ child ∈ host'.children, child.finSent = false) :
    Listened caller requests host host' := by
  cases hears with
  | ends ended => exact .of_done known ended
  | @repeats rsk isSyn found sends =>
    have asked := known rsk (List.mem_of_find?_eq_some found)
    refine .of_sends known ?_ sends
    intro p synack
    exact (synack.tells (syn isSyn).direct).mono fun hdr told =>
      ⟨rsk, asked, told⟩
  | asks isSyn run => exact servalSalRcvSyn_listened known (syn isSyn) run
  | makes found run =>
    exact servalSalChildProcess_listened known noRsyn noFin found run noFins
  | refuses sends =>
    exact .of_sends known (fun p isReset => isReset.tells _) sends

/-- A listener keeps the sockets that it has made, and makes no listeners. -/
theorem Hears.children (hears : Hears env host skb host') :
    ∃ more, host'.children = host.children ++ more ∧
      ∀ child ∈ more, child.skState ≠ .listen := by
  have none (same : host'.children = host.children) :
      ∃ more, host'.children = host.children ++ more ∧
        ∀ child ∈ more, child.skState ≠ .listen :=
    ⟨[], by rw [same, List.append_nil], by simp⟩
  cases hears with
  | ends ended =>
    obtain ⟨_, _, _, _, _, rfl, -⟩ := servalSalDone_spec ended
    exact none rfl
  | repeats syn found sends =>
    obtain ⟨_, _, _, _, rfl, -⟩ := sends
    exact none rfl
  | asks syn run =>
    rcases servalSalRcvSyn_spec run with
      ⟨tick, later, rfl⟩ | ⟨ctrl, srv, myaddr, fresh, -, -, -, -, sends⟩
    · exact none rfl
    · obtain ⟨_, _, _, _, rfl, -⟩ := sends
      exact none rfl
  | @makes rsk found run =>
    obtain ⟨done, processed, run⟩ := of_bind run
    cases run
    have notListen : (respondSock host.sk rsk).skState ≠ .listen := by
      rw [(respondSock_parties host.sk rsk).2.2.1]
      decide
    have does := stateProcess_does notListen processed
    refine ⟨[done.sk], rfl, fun child single => ?_⟩
    rw [List.mem_singleton.mp single]
    exact (SameBacklog.of_receiving does).notListen notListen
  | refuses sends =>
    obtain ⟨_, _, _, _, rfl, -⟩ := sends
    exact none rfl

end

/-- What the two hosts know of each other, as long as nobody has sent a
FIN. -/
structure Handshake.Agreed (caller : Party) (s : Handshake) : Prop where
  steady : Steady caller s.client.sk
  state :
    s.client.sk.skState = .request ∨ s.client.sk.skState = .connected ∨
      s.client.sk.skState = .closed
  peer :
    s.client.sk.skState = .connected →
      ∃ rsk ∈ s.requests, s.client.sk.peer = rsk.party
  asked : ∀ rsk ∈ s.requests, rsk.caller = caller
  known : ∀ rsk ∈ s.server.sk.synQueue ++ s.server.sk.acceptQueue, rsk ∈ s.requests
  clientOut : ∀ p ∈ s.client.out, Tells (FromParty caller) p
  serverOut : ∀ p ∈ s.server.out, Tells (fun hdr => ∃ rsk ∈ s.requests, FromParty rsk.party hdr) p
  children : ∀ child ∈ s.server.children, ∃ rsk ∈ s.requests, ChildOf rsk child

structure Handshake.Invariant (caller : Party) (s : Handshake) : Prop where
  client : s.client.sk.skState ≠ .listen
  children : ∀ child ∈ s.server.children, child.skState ≠ .listen
  agreed : s.NoFin → s.Agreed caller

private theorem Acts.children {env : SalEnv} {means : Means} {n : Nat} {host host' : SalHost}
    (acts : Acts env means n host host') :
    host'.children = host.children := by
  refine @Acts.keeps env means n host host' (fun _ after => after.children = host.children)
    ?send ?answer ?done ?change ?push ?skip rfl acts
  case send =>
    intro n middle after before sends
    obtain ⟨_, _, _, _, rfl, -⟩ := sends
    exact before
  case answer =>
    intro n middle after before sends
    obtain ⟨_, _, _, _, rfl, -⟩ := sends
    exact before
  case done =>
    intro n middle after before ended
    obtain ⟨_, _, _, _, _, rfl, -⟩ := servalSalDone_spec ended
    exact before
  case change =>
    exact fun before _ => before
  case push =>
    intro n middle after sk skb err before pushes pushed
    obtain ⟨_, _, _, _, _, _, _, _, _, rfl⟩ := servalSalQueueAndPush_frame pushed
    exact before
  case skip =>
    exact fun before _ => before

section

variable {cenv senv : SalEnv} {s s' : Handshake} {caller : Party}
  {event : SockEvent} {index : Nat} {skb : RcvSkb}

private theorem SockEvent.honest.gentle {out : List WirePacket} {syn : SalHeader → Prop}
    (honest : event.honest out) (told : ∀ p ∈ out, Tells syn p) :
    event.gentle = true := by
  cases event with
  | receive skb =>
    obtain ⟨p, sent, read⟩ := honest
    obtain ⟨noRsyn, noFin, -⟩ := told p sent skb.hdr read
    rw [SockEvent.gentle, noRsyn, noFin]
    rfl
  | transport | rexmit | table => rfl
  | connect | release | migrate | timewait => exact honest.elim

/-- Who introduces itself to the client is a request of the listener. -/
theorem SockEvent.honest.introduced
    {out : List WirePacket} {requests : List RequestSock} {party : Party}
    (honest : event.honest out)
    (told : ∀ p ∈ out, Tells (fun hdr => ∃ rsk ∈ requests, FromParty rsk.party hdr) p)
    (heard : event.introduced = some party) :
    ∃ rsk ∈ requests, party = rsk.party := by
  cases event with
  | receive skb =>
    obtain ⟨p, sent, read⟩ := honest
    obtain ⟨-, -, introduces⟩ := told p sent skb.hdr read
    rw [SockEvent.introduced, SalHeader.introduced] at heard
    split at heard
    · rename_i syn
      obtain ⟨rsk, asked, from'⟩ := introduces syn
      rw [from'.speaker, Option.some.injEq] at heard
      exact ⟨rsk, asked, heard.symm⟩
    · cases heard
  | connect | release | migrate | timewait | transport | rexmit | table =>
    cases heard

private theorem Handshake.Agreed.client {client : SalHost} (agreed : s.Agreed caller)
    (honest : event.honest s.server.out)
    (run : sockStep cenv s.client event = .ok client)
    (noFin : client.sk.finSent = false) :
    Agreed caller { s with client } := by
  have running : handshaking s.client.sk.skState = true := by
    rcases agreed.state with state | state | state <;> rw [state] <;> rfl
  obtain ⟨steady, advances, packets, out, each⟩ :=
    sockStep_proceeds (honest.gentle agreed.serverOut) running agreed.steady
      run noFin
  refine { agreed with
    steady := steady
    state := ?_
    peer := ?_
    clientOut := ?_ }
  · rcases advances.state with same | closed | ⟨connected, -⟩
    · rw [same]
      exact agreed.state
    · exact .inr (.inr closed)
    · exact .inr (.inl connected)
  · intro connected
    rcases advances.peer with ⟨same, notRequest⟩ | ⟨-, heard⟩
    · have was : s.client.sk.skState = .connected := by
        rcases agreed.state with request | connected | closed
        · exact absurd request (notRequest connected)
        · exact connected
        rcases advances.state with same | state | ⟨-, state | state⟩
        · cases connected.symm.trans (same.trans closed)
        · cases connected.symm.trans state
        · cases closed.symm.trans state
        · cases closed.symm.trans state
      obtain ⟨rsk, asked, peer⟩ := agreed.peer was
      exact ⟨rsk, asked, same.trans peer⟩
    · exact honest.introduced agreed.serverOut heard
  · intro p sent
    rw [out] at sent
    rcases List.mem_append.mp sent with before | after
    · exact agreed.clientOut p before
    · exact each p after

private theorem Handshake.Agreed.listener {server : SalHost} (agreed : s.Agreed caller)
    (listen : s.server.sk.skState = .listen)
    (delivered : Delivered s.client.out skb)
    (run : servalSalStateProcess senv s.server skb = .ok server)
    (noFins : ∀ child ∈ server.children, child.finSent = false) :
    Agreed caller
      { s with server, requests := server.sk.synQueue ++ s.requests } := by
  obtain ⟨p, sent, read⟩ := delivered
  obtain ⟨noRsyn, noFin, syn⟩ := agreed.clientOut p sent skb.hdr read
  obtain ⟨middle, unmoved, hears⟩ := servalSalStateProcess_hears listen run
  have same : middle = s.server := by
    rcases unmoved with same | migrated
    · exact same
    · rw [rcvMigration, noRsyn] at migrated
      cases migrated
      rfl
  rw [same] at hears
  obtain ⟨known, called, ⟨packets, out, each⟩, made⟩ :=
    hears.listened noRsyn noFin syn agreed.known noFins
  have more {rsk : RequestSock} (asked : rsk ∈ s.requests) :
      rsk ∈ server.sk.synQueue ++ s.requests :=
    List.mem_append_right _ asked
  refine { agreed with
    peer := ?_
    asked := ?_
    known := known
    serverOut := ?_
    children := ?_ }
  · intro connected
    obtain ⟨rsk, asked, peer⟩ := agreed.peer connected
    exact ⟨rsk, more asked, peer⟩
  · intro rsk asked
    rcases List.mem_append.mp asked with waits | before
    · rcases called rsk waits with before | new
      · exact agreed.asked rsk before
      · exact new
    · exact agreed.asked rsk before
  · intro p sent
    rw [out] at sent
    rcases List.mem_append.mp sent with before | after
    · refine (agreed.serverOut p before).mono ?_
      rintro hdr ⟨rsk, asked, told⟩
      exact ⟨rsk, more asked, told⟩
    · exact each p after
  · intro child inside
    have before (old : ∃ rsk ∈ s.requests, ChildOf rsk child) :
        ∃ rsk ∈ server.sk.synQueue ++ s.requests, ChildOf rsk child := by
      obtain ⟨rsk, asked, childOf⟩ := old
      exact ⟨rsk, more asked, childOf⟩
    rcases made child inside with old | new
    · exact before (agreed.children child old)
    · exact before new

theorem Handshake.Agreed.child {child : ServalSock} {done : SalHost} (agreed : s.Agreed caller)
    (honest : event.honest s.client.out)
    (inside : child ∈ s.server.children)
    (run : sockStep senv { s.server with sk := child, children := [] } event = .ok done)
    (noFin : done.sk.finSent = false) :
    Agreed caller
      { s with
        server :=
          { done with
            sk := s.server.sk
            children := s.server.children.set index done.sk } } := by
  obtain ⟨rsk, asked, childOf⟩ := agreed.children child inside
  have proceeds := @sockStep_proceeds rsk.party senv
      { s.server with sk := child, children := [] } done event
      (honest.gentle agreed.clientOut) childOf.handshaking childOf.steady run
      noFin
  have still := childOf.proceeds proceeds
  obtain ⟨packets, out, each⟩ := proceeds.out
  refine { agreed with serverOut := ?_, children := ?_ }
  · intro p sent
    rw [show done.out = s.server.out ++ packets from out] at sent
    rcases List.mem_append.mp sent with before | after
    · exact agreed.serverOut p before
    · exact (each p after).mono fun hdr told => ⟨rsk, asked, told⟩
  · intro other member
    rcases List.mem_or_eq_of_mem_set member with old | rfl
    · exact agreed.children other old
    · exact ⟨rsk, asked, still⟩

private theorem Handshake.Agreed.accept (agreed : s.Agreed caller) :
    Agreed caller { s with server := servalAcceptDequeue s.server } := by
  rw [servalAcceptDequeue]
  split
  · exact agreed
  rename_i rsk rest accepted
  refine { agreed with known := ?_ }
  intro other waits
  apply agreed.known
  rw [accepted]
  rcases List.mem_append.mp waits with waits | later
  · exact List.mem_append_left _ waits
  · exact List.mem_append_right _ (List.mem_cons_of_mem _ later)

private theorem handshakeStep_invariant {event : HandshakeEvent} (invariant : s.Invariant caller)
    (allowed : handshakeAllowed s event)
    (run : handshakeStep cenv senv s event = .ok s') :
    s'.Invariant caller := by
  cases event with
  | client event =>
    obtain ⟨client, stepped, run⟩ := of_bind run
    cases run
    refine ⟨sockStep_notListen invariant.client stepped, invariant.children, fun noFin => ?_⟩
    have before : s.NoFin := by
      refine ⟨?_, noFin.2⟩
      by_contra sent
      have later := sockStep_finSent invariant.client stepped (by simpa using sent)
      cases noFin.1.symm.trans later
    exact (invariant.agreed before).client allowed stepped noFin.1
  | listener skb =>
    obtain ⟨server, processed, run⟩ := of_bind run
    cases run
    obtain ⟨listen, delivered⟩ := allowed
    obtain ⟨middle, moved, hears⟩ := servalSalStateProcess_hears listen processed
    have same : middle.children = s.server.children := by
      rcases moved with rfl | migrated
      · rfl
      · obtain ⟨n, -, acts⟩ := (@rcvMigration_does _ _ s.server.sk _ _ migrated).1
        exact acts.children
    obtain ⟨more, children, notListen⟩ := hears.children
    rw [same] at children
    refine ⟨invariant.client, ?_, fun noFin => ?_⟩
    · intro child inside
      rw [children] at inside
      rcases List.mem_append.mp inside with before | new
      · exact invariant.children child before
      · exact notListen child new
    · have before : s.NoFin := by
        refine ⟨noFin.1, fun child inside => noFin.2 child ?_⟩
        rw [children]
        exact List.mem_append_left _ inside
      exact (invariant.agreed before).listener listen delivered processed noFin.2
  | accept =>
    cases run
    have same : (servalAcceptDequeue s.server).children = s.server.children := by
      rw [servalAcceptDequeue]
      split <;> rfl
    refine ⟨invariant.client, ?_, fun noFin => ?_⟩
    · rw [same]
      exact invariant.children
    · have before : s.NoFin := by
        refine ⟨noFin.1, ?_⟩
        rw [← same]
        exact noFin.2
      exact (invariant.agreed before).accept
  | child index event =>
    obtain ⟨server, stepped, run⟩ := of_bind run
    cases run
    rw [childStep] at stepped
    split at stepped
    · cases stepped
      exact invariant
    rename_i child found
    obtain ⟨done, processed, finished⟩ := of_bind stepped
    cases finished
    have inside := List.mem_of_getElem? found
    have notListen := invariant.children child inside
    refine ⟨invariant.client, ?_, fun noFin => ?_⟩
    · intro other member
      rcases List.mem_or_eq_of_mem_set member with old | rfl
      · exact invariant.children other old
      · exact @sockStep_notListen senv { s.server with sk := child, children := [] } done event
          notListen processed
    · obtain ⟨bound, -⟩ := List.getElem?_eq_some_iff.mp found
      have quiet : done.sk.finSent = false := noFin.2 done.sk (List.mem_set bound done.sk)
      have before : s.NoFin := by
        refine ⟨noFin.1, fun other member => ?_⟩
        obtain ⟨place, there⟩ := List.mem_iff_getElem?.mp member
        by_cases here : index = place
        · rw [← here, found, Option.some.injEq] at there
          rw [← there]
          by_contra sent
          have later := @sockStep_finSent senv
              { s.server with sk := child, children := [] } done event
              notListen processed (by simpa using sent)
          cases quiet.symm.trans later
        · refine noFin.2 other (List.mem_of_getElem? (i := place) ?_)
          rw [List.getElem?_set_ne here]
          exact there
      exact (invariant.agreed before).child allowed inside processed quiet
  | table table =>
    cases run
    exact ⟨invariant.client, invariant.children, fun noFin =>
      { invariant.agreed noFin with }⟩

end

theorem Handshake.Begins.invariant {cenv : SalEnv} {s : Handshake} (begins : s.Begins cenv) :
    s.Invariant s.client.sk.party := by
  obtain ⟨fresh, srvid, err, -, queue, out, run⟩ := begins.connects
  obtain ⟨steady, state, told⟩ := servalConnect_opens queue out run
  refine ⟨?_, ?_, fun _ => ⟨steady, ?_, ?_, ?_, ?_, told, ?_, ?_⟩⟩
  · rcases state with state | state <;> rw [state] <;> decide
  · rw [begins.children]
    simp
  · exact state.imp_right .inr
  · intro connected
    rcases state with state | state <;> cases connected.symm.trans state
  · rw [begins.requests]
    simp
  · rw [begins.waiting.1, begins.waiting.2]
    simp
  · rw [begins.out]
    simp
  · rw [begins.children]
    simp

/-- Whenever the client is connected to a socket of the listener, and neither
side has sent a FIN, each side knows the other one as what it is. -/
theorem handshake_agrees {cenv senv : SalEnv} {start s : Handshake} {history : List HandshakeEvent}
    (begins : start.Begins cenv)
    (admitted : Admits (handshakeStep cenv senv) handshakeAllowed start history)
    (run : runAll (handshakeStep cenv senv) start history = .ok s)
    (distinct :
      ∀ rsk ∈ s.requests, ∀ other ∈ s.requests, rsk.localFlowid = other.localFlowid → rsk = other)
    (noFin : s.NoFin)
    (connected : s.client.sk.skState = .connected)
    {child : ServalSock} (inside : child ∈ s.server.children)
    (flow : s.client.sk.peerFlowid = child.localFlowid) :
    s.client.sk.peer = child.party ∧ child.peer = s.client.sk.party := by
  have invariant := runAll_invariant (fun _ _ _ kept allowed stepped =>
      handshakeStep_invariant kept allowed stepped) begins.invariant admitted
      run
  have agreed := invariant.agreed noFin
  obtain ⟨rsk, asked, peer⟩ := agreed.peer connected
  obtain ⟨other, asked', childOf⟩ := agreed.children child inside
  have same : rsk = other := by
    apply distinct rsk asked other asked'
    calc
      rsk.localFlowid = s.client.sk.peerFlowid := (congrArg Party.flowid peer).symm
      _ = child.localFlowid := flow
      _ = other.localFlowid := congrArg Party.flowid childOf.steady.party
  constructor
  · rw [peer, same, childOf.steady.party]
  · rw [childOf.peer, agreed.asked other asked', agreed.steady.party]

def freshClient : SalHost :=
  plainConnection.withSk
    { plainSock with skState := .init, peerFlowid := Vector.replicate 4 0 }

def plainHistory : List HandshakeEvent :=
  let caller : SalSock :=
    { freshClient.sk.toSalSock with
      skState := .request, peerSrvid := Vector.replicate 32 3 }
  let rsk : RequestSock :=
    { plainRsk with
      peerFlowid := caller.localFlowid
      peerNonce := caller.localNonce
      rcvSeq := 9 }
  let arrives (hdr : SalHeader) : RcvSkb := { requestSkb with hdr }
  [.listener (arrives (.ofBuild caller ⟨UInt8.ofNat svhSyn, 9⟩ 0)), .client (.receive (arrives
      (.ofAnswer (synackSock rsk 6) (synackCb rsk) none))),
    .listener (arrives (.ofBuild
        { caller with
          skState := .connected, peerFlowid := rsk.localFlowid, rcvNxt := 101 }
        ⟨UInt8.ofNat (svhAck + svhConnAck), 10⟩ 0))]

theorem handshake_agrees_plain : ∃ client s child,
      Handshake.Begins plainEnv ⟨client, plainListener, []⟩ ∧
      runAll (handshakeStep plainEnv plainEnv) ⟨client, plainListener, []⟩
        plainHistory = .ok s ∧ s.client.sk.skState = .connected ∧ child ∈ s.server.children ∧
      child.skState = .connected ∧
      s.client.sk.peer = child.party ∧ child.peer = s.client.sk.party := by
  obtain ⟨⟨err, client⟩, connected, rest⟩ := @exists_of_leaves _
      (servalConnect plainEnv freshClient (Vector.replicate 32 3))
      (fun result =>
        decide (Admits (handshakeStep plainEnv plainEnv) handshakeAllowed
          ⟨result.2, plainListener, []⟩ plainHistory) &&
        leaves
          (runAll (handshakeStep plainEnv plainEnv) ⟨result.2, plainListener, []⟩ plainHistory)
          (fun s =>
            decide (∀ rsk ∈ s.requests, ∀ other ∈ s.requests,
              rsk.localFlowid = other.localFlowid → rsk = other) &&
            decide (s.client.sk.finSent = false ∧
              ∀ child ∈ s.server.children, child.finSent = false) &&
            decide (s.client.sk.skState = .connected) &&
            decide (∃ child ∈ s.server.children, child.skState = .connected ∧
              s.client.sk.peerFlowid = child.localFlowid)))
      (by decide +kernel)
  rw [Bool.and_eq_true, decide_eq_true_eq] at rest
  obtain ⟨admitted, rest⟩ := rest
  obtain ⟨s, run, facts⟩ := exists_of_leaves rest
  simp only [Bool.and_eq_true, decide_eq_true_eq] at facts
  obtain ⟨⟨⟨distinct, noFin⟩, open'⟩, child, inside, established, flow⟩ := facts
  have begins : Handshake.Begins plainEnv ⟨client, plainListener, []⟩ :=
    ⟨⟨freshClient, _, err, rfl, rfl, rfl, connected⟩, rfl, ⟨rfl, rfl⟩, rfl, rfl, rfl⟩
  exact ⟨client, s, child, begins, run, open', inside, established,
    handshake_agrees begins admitted run distinct noFin open' inside flow⟩

end Serval
