import Serval.Sal.Backlog
import Serval.Sal.CtrlQueue
import Serval.Sal.Requests

/-!
# The parties of a connection

A party of a connection is known to the other one by its flow id, its nonce
and the number that it sends next. A socket in a handshake and after it keeps
its own three values, and tells them in every SYN.
-/

open Serval.Support

namespace Serval

structure Party where
  flowid : Vector UInt8 4
  nonce : Vector UInt8 8
  nxt : UInt32

def ServalSock.party (sk : ServalSock) : Party := ⟨sk.localFlowid, sk.localNonce, sk.sndNxt⟩

def ServalSock.peer (sk : ServalSock) : Party := ⟨sk.peerFlowid, sk.peerNonce, sk.rcvNxt⟩

def RequestSock.party (rsk : RequestSock) : Party :=
  ⟨rsk.localFlowid, rsk.localNonce, rsk.issSeq + 1⟩

def RequestSock.caller (rsk : RequestSock) : Party :=
  ⟨rsk.peerFlowid, rsk.peerNonce, rsk.rcvSeq + 1⟩

def SalHeader.speaker (hdr : SalHeader) : Option Party :=
  hdr.ctrlExt.map fun ctrl => ⟨hdr.srcFlowid, ctrl.nonce, ctrl.verno + 1⟩

def SalHeader.introduced (hdr : SalHeader) : Option Party :=
  if hdr.hasSyn then hdr.speaker else none

variable {skb : RcvSkb} {start sk : ServalSock} {p : WirePacket}

theorem SavedFrom.peer (saved : SavedFrom skb sk) : skb.hdr.speaker = some sk.peer := by
  obtain ⟨flowid, nonce, nxt⟩ := saved
  obtain ⟨ctrl, control, nonce⟩ := Option.map_eq_some_iff.mp nonce.symm
  rw [ServalSock.peer, flowid, ← nonce, nxt, SalHeader.verno, SalHeader.speaker, control]
  rfl

theorem speaker_saveResponse (syn : skb.hdr.hasSyn = true) (sk : ServalSock) :
    skb.hdr.speaker = some (saveResponse sk skb).peer := by
  obtain ⟨ctrl, control⟩ := Option.isSome_iff_exists.mp (Option.isSome_of_any syn)
  rw [SalHeader.speaker, saveResponse, SalHeader.verno, control]
  rfl

theorem fillRequestSock_caller {ctrl : ControlExt}
    (control : skb.hdr.ctrlExt = some ctrl) (rsk : RequestSock)
    (srv : ServiceExt) (myaddr : NetAddr) :
    skb.hdr.speaker = some (fillRequestSock rsk skb ctrl srv myaddr).caller := by
  rw [SalHeader.speaker, control, fillRequestSock]
  cases skb.hdr.srcExt <;> rfl

theorem respondSock_parties (sk : ServalSock) (rsk : RequestSock) :
    (respondSock sk rsk).party = rsk.party ∧ (respondSock sk rsk).peer = rsk.caller ∧
      (respondSock sk rsk).skState = .respond ∧ (respondSock sk rsk).ctrlQueue = [] := by
  rw [respondSock, servalSockHash]
  split
  · exact ⟨rfl, rfl, rfl, rfl⟩
  · exact ⟨rfl, rfl, rfl, rfl⟩

/-! ## What the packets say -/

/-- The packet ends nothing and migrates nothing, and what it introduces
itself as. -/
def Tells (syn : SalHeader → Prop) (p : WirePacket) : Prop :=
  ∀ hdr, p.hdr = some hdr → hdr.hasRsyn = false ∧ hdr.hasFin = false ∧ (hdr.hasSyn = true → syn hdr)

structure FromParty (party : Party) (hdr : SalHeader) : Prop where
  speaker : hdr.speaker = some party
  direct : hdr.srcExt = none

theorem Tells.mono {syn wider : SalHeader → Prop}
    (implies : ∀ hdr, syn hdr → wider hdr) (tells : Tells syn p) :
    Tells wider p := by
  intro hdr read
  obtain ⟨noRsyn, noFin, introduces⟩ := tells hdr read
  exact ⟨noRsyn, noFin, fun syn => implies hdr (introduces syn)⟩

variable {env : SalEnv} {heard : Option Party}

theorem IsReset.tells (reset : IsReset env skb p) (syn : SalHeader → Prop) :
    Tells syn p := by
  intro hdr read
  rw [reset.hdr, Option.some.injEq] at read
  rw [← read]
  have flags (mask : Nat) (other : hasFlag (UInt8.ofNat svhRst) mask = false)
      (neither : hasFlag (UInt8.ofNat (svhRst + svhAck)) mask = false) :
      hasFlag (resetCb skb.hdr).flags mask = false := by
    rw [resetCb]
    split
    · exact other
    · exact neither
  refine ⟨flags svhRsyn (by decide) (by decide), flags svhFin (by decide) (by decide),
    fun isSyn => ?_⟩
  have noSyn := flags svhSyn (by decide) (by decide)
  exact absurd (isSyn.symm.trans noSyn) (by decide)

theorem IsSynack.tells {rsk : RequestSock} {hdr : SalHeader}
    (synack : IsSynack env rsk hdr p) (direct : hdr.srcExt = none) :
    Tells (FromParty rsk.party) p := by
  intro hdr' read
  rw [synack.hdr_plain direct, Option.some.injEq] at read
  rw [← read]
  have noRsyn : hasFlag (synackCb rsk).flags svhRsyn = false := by
    show hasFlag (UInt8.ofNat (svhSyn + svhAck)) svhRsyn = false
    decide
  have noFin : hasFlag (synackCb rsk).flags svhFin = false := by
    show hasFlag (UInt8.ofNat (svhSyn + svhAck)) svhFin = false
    decide
  exact ⟨noRsyn, noFin, fun _ => ⟨rfl, rfl⟩⟩

/-! ## Sockets that keep to themselves -/

/-- A packet of the queue that neither ends nor migrates, and in which the
party introduces itself if at all. -/
structure Opening (party : Party) (skb : CtrlSkb) : Prop where
  noRsyn : hasFlag skb.cb.flags svhRsyn = false
  noFin : hasFlag skb.cb.flags svhFin = false
  number : hasFlag skb.cb.flags svhSyn = true → skb.cb.verno + 1 = party.nxt

theorem Opening.markRetrans {party : Party} {skb : CtrlSkb} (opening : Opening party skb) :
    Opening party (markRetrans skb) := by
  have same (mask : Nat) (other : hasFlag (UInt8.ofNat svhRetrans) mask = false) :
      hasFlag (Serval.markRetrans skb).cb.flags mask = hasFlag skb.cb.flags mask := by
    rw [Serval.markRetrans, hasFlag_or, other, Bool.or_false]
  refine ⟨?_, ?_, ?_⟩
  · rw [same svhRsyn (by decide)]
    exact opening.noRsyn
  · rw [same svhFin (by decide)]
    exact opening.noFin
  · rw [same svhSyn (by decide)]
    exact opening.number

theorem Opening.of_flags {party : Party} {flags : Nat} {verno : UInt32} {data : List UInt8}
    (noRsyn : hasFlag (UInt8.ofNat flags) svhRsyn = false)
    (noFin : hasFlag (UInt8.ofNat flags) svhFin = false)
    (noSyn : hasFlag (UInt8.ofNat flags) svhSyn = false) :
    Opening party (ctrlSkb flags verno data) :=
  ⟨noRsyn, noFin, fun syn => by cases noSyn.symm.trans syn⟩

structure Steady (owner : Party) (sk : ServalSock) : Prop where
  party : sk.party = owner
  queue : ∀ skb ∈ sk.ctrlQueue, Opening owner skb

theorem Sendable.opening {owner : Party} {skb : CtrlSkb}
    (sendable : Sendable sk skb) (steady : Steady owner sk) :
    Opening owner skb := by
  cases sendable with
  | data data | ack | connAck data | reset => exact .of_flags (by decide) (by decide) (by decide)
  | queued waits => exact steady.queue skb waits

theorem SalHeader.ofBuild_any (sk : SalSock) (cb : SalSkbCb) (authenticator : UInt64)
    (flag : ControlExt → Bool) :
    (SalHeader.ofBuild sk cb authenticator).ctrlExt.any flag =
      (isControl cb.flags && flag (ControlExt.ofBuild sk cb)) := by
  rw [SalHeader.ofBuild]
  cases isControl cb.flags <;> rfl

theorem OwnPacket.tells {host : SalHost} {owner : Party}
    (own : OwnPacket env host p) (steady : Steady owner host.sk) :
    Tells (FromParty owner) p := by
  obtain ⟨skb, sendable, sent⟩ := own
  obtain ⟨authenticator, carries⟩ := sent.hdr
  obtain ⟨noRsyn, noFin, number⟩ := sendable.opening steady
  intro hdr read
  rw [carries, Option.some.injEq] at read
  rw [← read, SalHeader.hasRsyn, SalHeader.hasFin, SalHeader.hasSyn, SalHeader.ofBuild_any,
    SalHeader.ofBuild_any, SalHeader.ofBuild_any]
  refine ⟨?_, ?_, ?_⟩
  · exact (congrArg (isControl skb.cb.flags && ·) noRsyn).trans (Bool.and_false _)
  · exact (congrArg (isControl skb.cb.flags && ·) noFin).trans (Bool.and_false _)
  · intro syn
    obtain ⟨control, syn⟩ := Bool.and_eq_true_iff.mp syn
    refine ⟨?_, rfl⟩
    have party := steady.party
    rw [SalHeader.speaker, SalHeader.ofBuild_ctrlExt control, ← party]
    have next : skb.cb.verno + 1 = host.sk.sndNxt :=
      (number syn).trans (congrArg Party.nxt party).symm
    show some (Party.mk _ _ (skb.cb.verno + 1)) = _
    rw [next]
    rfl

def handshaking (state : SalState) : Bool :=
  match state with
  | .request | .respond | .connected | .closed => true
  | _ => false

/-- How far the handshake has come since `start`, and whom the socket takes
for its peer; `heard` is the party that has introduced itself meanwhile. -/
structure Advances (heard : Option Party) (start sk : ServalSock) : Prop where
  state :
    sk.skState = start.skState ∨ sk.skState = .closed ∨
      sk.skState = .connected ∧ (start.skState = .request ∨ start.skState = .respond)
  peer :
    sk.peer = start.peer ∧ (sk.skState = .connected → start.skState ≠ .request) ∨
      start.skState = .request ∧ heard = some sk.peer

theorem Advances.refl : Advances heard sk sk := by
  refine ⟨.inl rfl, .inl ⟨rfl, ?_⟩⟩
  intro connected request
  cases connected.symm.trans request

theorem Advances.of_same {sk' : ServalSock}
    (advances : Advances heard start sk) (state : sk'.skState = sk.skState)
    (peer : sk'.peer = sk.peer) : Advances heard start sk' := by
  obtain ⟨states, peers⟩ := advances
  rw [← state] at states peers
  rw [← peer] at peers
  exact ⟨states, peers⟩

theorem Advances.closed {sk' : ServalSock}
    (advances : Advances heard start sk) (state : sk'.skState = .closed)
    (peer : sk'.peer = sk.peer) : Advances heard start sk' := by
  refine ⟨.inr (.inl state), ?_⟩
  rw [peer]
  refine advances.peer.imp_left fun same => ⟨same.1, ?_⟩
  rw [state]
  exact fun connected => SalState.noConfusion connected

theorem Advances.handshaking (advances : Advances heard start sk)
    (open' : handshaking start.skState = true) :
    Serval.handshaking sk.skState = true := by
  rcases advances.state with same | closed | ⟨connected, -⟩
  · rw [same]
    exact open'
  · rw [closed]
    rfl
  · rw [connected]
    rfl

theorem Moves.not_handshaking {state state' : SalState}
    (moves : Moves state state') : handshaking state = false := by
  cases moves <;> rfl

structure Proceeds (owner : Party) (heard : Option Party) (host host' : SalHost) : Prop where
  steady : Steady owner host'.sk
  advances : Advances heard host.sk host'.sk
  out :
    ∃ packets, host'.out = host.out ++ packets ∧
      ∀ p ∈ packets, Tells (FromParty owner) p

structure Gentle (owner : Party) (heard : Option Party) (start : ServalSock)
    (means : Means) : Prop where
  change :
    ∀ {sk sk' : ServalSock}, means.change sk sk' → Steady owner sk →
      Advances heard start sk → Steady owner sk' ∧ Advances heard start sk'
  finSent : ∀ {sk sk' : ServalSock}, means.change sk sk' → sk'.finSent = sk.finSent
  push : ∀ {sk sk' : ServalSock} {skb : CtrlSkb}, means.push sk sk' skb → sk'.finSent = true
  skip : ¬ means.skip
  answer : ∀ {p : WirePacket}, means.answer p → Tells (FromParty owner) p

section

variable {owner : Party} {heard : Option Party} {sk sk' : ServalSock}
  {env : SalEnv} {host host' host'' : SalHost}

theorem Steady.of_same (steady : Steady owner sk) (party : sk'.party = sk.party)
    (queue : ∀ skb ∈ sk'.ctrlQueue, skb ∈ sk.ctrlQueue) :
    Steady owner sk' :=
  ⟨party.trans steady.party, fun skb waits =>
    steady.queue skb (queue skb waits)⟩

theorem Proceeds.sends {sent : WirePacket → Prop} (proceeds : Proceeds owner heard host host')
    (tells : ∀ p, sent p → Tells (FromParty owner) p)
    (sends : Sends sent host' host'') : Proceeds owner heard host host'' := by
  obtain ⟨steady, advances, packets, out, each⟩ := proceeds
  obtain ⟨_, _, more, _, rfl, told, -⟩ := sends
  refine ⟨steady.of_same rfl fun _ waits => waits, advances.of_same rfl rfl, packets ++ more, ?_,
    ?_⟩
  · rw [← List.append_assoc, ← out]
    rfl
  · intro p inside
    rcases List.mem_append.mp inside with before | after
    · exact each p before
    · exact tells p (told p after)

theorem Proceeds.done (proceeds : Proceeds owner heard host host')
    (ended : servalSalDone host' = .ok host'') :
    Proceeds owner heard host host'' := by
  obtain ⟨_, _, _, _, _, rfl, -, ⟨rfl, rfl⟩ | ⟨-, rfl, rfl⟩⟩ := servalSalDone_spec ended
  · exact ⟨proceeds.steady.of_same rfl fun _ => id, proceeds.advances.closed rfl rfl, proceeds.out⟩
  · exact ⟨proceeds.steady.of_same rfl nofun, proceeds.advances.closed rfl rfl, proceeds.out⟩

theorem Acts.proceeds {means : Means} {n : Nat} (gentle : Gentle owner heard host.sk means)
    (steady : Steady owner host.sk) (acts : Acts env means n host host')
    (noFin : host'.sk.finSent = false) : Proceeds owner heard host host' := by
  refine @Acts.keeps env means n host host' (fun _ after => after.sk.finSent = false →
      Proceeds owner heard host after)
    ?send ?answer ?done ?change ?push ?skip ?start acts noFin
  case start =>
    exact fun _ => ⟨steady, .refl, [], by simp, by simp⟩
  case send =>
    intro n middle after before sends noFin
    have unsent : middle.sk.finSent = false := by
      obtain ⟨_, _, _, _, rfl, -⟩ := sends
      exact noFin
    have proceeds := before unsent
    exact proceeds.sends (fun p own => own.tells proceeds.steady) sends
  case answer =>
    intro n middle after before sends noFin
    have unsent : middle.sk.finSent = false := by
      obtain ⟨_, _, _, _, rfl, -⟩ := sends
      exact noFin
    exact (before unsent).sends (fun p answer => gentle.answer answer) sends
  case done =>
    intro n middle after before ended noFin
    have unsent : middle.sk.finSent = false := by
      obtain ⟨_, _, _, _, _, rfl, -⟩ := servalSalDone_spec ended
      exact noFin
    exact (before unsent).done ended
  case change =>
    intro n middle sk before changed noFin
    have proceeds := before ((gentle.finSent changed).symm.trans noFin)
    obtain ⟨steady, advances⟩ := gentle.change changed proceeds.steady proceeds.advances
    exact ⟨steady, advances, proceeds.out⟩
  case push =>
    intro n middle after sk skb err before pushes pushed noFin
    obtain ⟨_, _, _, _, _, _, _, _, _, rfl⟩ := servalSalQueueAndPush_frame pushed
    cases (gentle.push pushes).symm.trans noFin
  case skip =>
    intro n middle before skips
    exact absurd skips gentle.skip

theorem Acts.finSent {means : Means} {n : Nat}
    (change : ∀ {sk sk' : ServalSock}, means.change sk sk' → sk'.finSent = sk.finSent)
    (push : ∀ {sk sk' : ServalSock} {skb : CtrlSkb}, means.push sk sk' skb →
      sk'.finSent = sk.finSent ∨ sk'.finSent = true)
    (acts : Acts env means n host host') (sent : host.sk.finSent = true) :
    host'.sk.finSent = true := by
  refine @Acts.keeps_sk _ _ _ _ _ (fun sk => sk.finSent = true) ?_
    (fun changed kept => (change changed).trans kept)
    (fun pushes kept => (push pushes).elim (·.trans kept) id) sent acts
  rintro sk sk' ⟨_, _, _, _, _, _, _, _, _, _, _, _, -, rfl⟩ kept
  exact kept

variable {start : ServalSock}

theorem Received.finSent {skb : RcvSkb}
    (changed : Received env skb start sk sk') : sk'.finSent = sk.finSent := by
  cases changed <;> rfl

theorem Called.finSent (changed : Called sk sk') : sk'.finSent = sk.finSent := by
  cases changed with
  | request srvid init =>
    rw [servalSockHash]
    split <;> rfl
  | _ => rfl

theorem sockStep_finSent {event : SockEvent} (notListen : host.sk.skState ≠ .listen)
    (run : sockStep env host event = .ok host')
    (sent : host.sk.finSent = true) : host'.sk.finSent = true := by
  have calls {k : Nat} (does : Does env (calling host.sk) k host host') :
      host'.sk.finSent = true := by
    obtain ⟨n, -, acts⟩ := does
    refine acts.finSent Called.finSent ?_ sent
    intro sk sk' skb pushes
    cases pushes with
    | syn | rsyn => exact .inl rfl
    | fin => exact .inr rfl
  rcases sockStep_does notListen run with does | ⟨table, rfl⟩
  · cases event with
    | receive skb =>
      obtain ⟨n, -, acts⟩ := does
      refine acts.finSent Received.finSent ?_ sent
      intro sk sk' skb pushes
      cases pushes with
      | rsynack => exact .inl rfl
      | fin => exact .inr rfl
    | connect | release | migrate | transport | rexmit | timewait | table =>
      exact calls does
  · exact sent

theorem sockStep_notListen {event : SockEvent} (notListen : host.sk.skState ≠ .listen)
    (run : sockStep env host event = .ok host') :
    host'.sk.skState ≠ .listen := by
  rcases sockStep_does notListen run with does | ⟨table, rfl⟩
  · cases event with
    | receive skb => exact (SameBacklog.of_receiving does).notListen notListen
    | connect | release | migrate | transport | rexmit | timewait | table =>
      exact (SameBacklog.of_calling does).notListen notListen
  · exact notListen

theorem gentle_receiving {skb : RcvSkb} (running : handshaking start.skState = true)
    (noRsyn : skb.hdr.hasRsyn = false) (noFin : skb.hdr.hasFin = false) :
    Gentle owner skb.hdr.introduced start (receiving env skb start) where
  finSent := Received.finSent
  push pushes := by
    cases pushes with
    | rsynack rsyn => cases noRsyn.symm.trans rsyn
    | fin ends => rfl
  skip := id
  answer reset := reset.tells _
  change := by
    intro sk sk' changed steady advances
    have heard (synack : (skb.hdr.hasSyn && skb.hdr.hasAck) = true) :
        skb.hdr.hasSyn = true ∧ skb.hdr.introduced = skb.hdr.speaker := by
      have syn := (Bool.and_eq_true_iff.mp synack).1
      exact ⟨syn, if_pos syn⟩
    cases changed with
    | acked accepts early =>
      refine ⟨steady.of_same rfl ?_, advances.of_same rfl rfl⟩
      intro skb waits
      rw [ServalSock.ctrlQueue, ackedSk_ctrlSent] at waits
      rcases List.mem_append.mp waits with sent | unsent
      · exact List.mem_append_left _ ((List.dropWhile_sublist _).subset sent)
      · exact List.mem_append_right _ unsent
    | migrated pending noRsyn =>
      exact ⟨steady.of_same rfl fun _ waits => waits, advances.of_same rfl rfl⟩
    | rsynSent saddr rsyn | rsynNoted rsyn | expected rsyn | rsyn rsyn valid =>
      cases noRsyn.symm.trans rsyn
    | fin fin valid => cases noFin.symm.trans fin
    | responded request synack =>
      obtain ⟨syn, introduced⟩ := heard synack
      refine ⟨steady.of_same rfl fun _ waits => waits, advances.state, .inr ⟨request, ?_⟩⟩
      rw [introduced]
      exact speaker_saveResponse syn sk
    | connected request synack saved =>
      obtain ⟨-, introduced⟩ := heard synack
      refine ⟨steady.of_same rfl fun _ waits => waits, .inr (.inr ⟨rfl, .inl request⟩),
        .inr ⟨request, ?_⟩⟩
      rw [introduced]
      exact saved.peer
    | saved respond =>
      exact ⟨steady.of_same rfl fun _ waits => waits, advances.of_same rfl rfl⟩
    | established respond =>
      refine ⟨steady.of_same rfl fun _ waits => waits, .inr (.inr ⟨rfl, .inr respond⟩), ?_⟩
      refine advances.peer.imp_left fun same => ⟨same.1, ?_⟩
      rw [respond]
      exact fun _ => SalState.noConfusion
    | closewait connected fin => cases noFin.symm.trans fin
    | moves moves timer =>
      have still := advances.handshaking running
      cases still.symm.trans moves.not_handshaking

theorem Steady.marked (steady : Steady owner sk) {before rest : List CtrlSkb} {skb : CtrlSkb}
    (queue : sk.ctrlQueue = before ++ skb :: rest)
    (queue' : sk'.ctrlQueue = before ++ markRetrans skb :: rest)
    (party : sk'.party = sk.party) : Steady owner sk' := by
  refine ⟨party.trans steady.party, ?_⟩
  have openings := steady.queue
  rw [queue] at openings
  rw [queue']
  intro other waits
  simp only [List.mem_append, List.mem_cons] at waits openings
  rcases waits with waits | rfl | waits
  · exact openings other (.inl waits)
  · exact (openings skb (.inr (.inl rfl))).markRetrans
  · exact openings other (.inr (.inr waits))

private def resting : Means where
  change := Retries
  push sk sk' _ := sk' = sk.ending
  skip := False
  answer _ := False

theorem gentle_resting : Gentle owner heard start resting where
  finSent changed := by cases changed <;> rfl
  push pushes := by rw [pushes]; rfl
  skip := id
  answer := False.elim
  change := by
    intro sk sk' changed steady advances
    cases changed with
    | @markSent skb rest first =>
      refine ⟨@Steady.marked _ _ _ steady [] (rest ++ sk.ctrlUnsent) skb
        ?_ rfl rfl, advances.of_same rfl rfl⟩
      rw [ServalSock.ctrlQueue, first]
      rfl
    | @markUnsent skb rest first =>
      refine ⟨@Steady.marked _ _ _ steady sk.ctrlSent rest skb ?_ rfl rfl, advances.of_same rfl rfl⟩
      rw [ServalSock.ctrlQueue, first]
    | retried =>
      exact ⟨steady.of_same rfl fun _ waits => waits, advances.of_same rfl rfl⟩

def SockEvent.gentle : SockEvent → Bool
  | .receive skb => !skb.hdr.hasRsyn && !skb.hdr.hasFin
  | .transport _ | .rexmit | .table _ => true
  | _ => false

def SockEvent.introduced : SockEvent → Option Party
  | .receive skb => skb.hdr.introduced
  | _ => none

theorem sockStep_proceeds {event : SockEvent} (gentle : event.gentle = true)
    (running : handshaking host.sk.skState = true)
    (steady : Steady owner host.sk)
    (run : sockStep env host event = .ok host')
    (noFin : host'.sk.finSent = false) :
    Proceeds owner event.introduced host host' := by
  cases event with
  | receive skb =>
    simp only [SockEvent.gentle, Bool.and_eq_true, Bool.not_eq_true']
      at gentle
    have notListen : host.sk.skState ≠ .listen := by
      intro listen
      rw [listen] at running
      cases running
    obtain ⟨n, -, acts⟩ := stateProcess_does notListen run
    exact acts.proceeds (gentle_receiving running gentle.1 gentle.2) steady noFin
  | transport reply =>
    obtain ⟨n, -, acts⟩ := @runReply_does env resting host host' reply (fun _ _ => rfl) run
    exact acts.proceeds gentle_resting steady noFin
  | rexmit =>
    obtain ⟨n, -, acts⟩ := @servalSalRexmitTimeout_does env host host' resting id run
    exact acts.proceeds gentle_resting steady noFin
  | table table =>
    cases run
    exact ⟨steady, .refl, [], by simp, by simp⟩
  | connect | release | migrate | timewait => cases gentle

end

end Serval
