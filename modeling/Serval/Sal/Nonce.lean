import Serval.Sal.Survival

/-!
# Nonces

A packet of somebody who does not know the nonce of the peer. The nonce is
compared for a FIN and for a migration only, and not when the SYN bit is set;
resets, acknowledgements and answers to a migration are taken from anyone.
-/

namespace Serval

open Serval.Support

def established : SalState → Bool
  | .connected | .finwait1 | .finwait2 | .closing | .closewait | .lastack =>
    true
  | _ => false

def takesFin : SalState → Bool
  | .connected | .finwait1 | .finwait2 => true
  | _ => false

/-- What a packet from a stranger should leave alone, besides the addresses. -/
structure FlowState where
  skState : SalState
  salState : RsynState
  sndIss : UInt32
  sndUna : UInt32
  sndNxt : UInt32
  sndWnd : UInt32
  rcvNxt : UInt32
  ctrlSent : List CtrlSkb
  ctrlUnsent : List CtrlSkb
  skShutdown : UInt8
  migDaddr : NetAddr

def ServalSock.flow (sk : ServalSock) : FlowState where
  skState := sk.skState
  salState := sk.salState
  sndIss := sk.sndIss
  sndUna := sk.sndUna
  sndNxt := sk.sndNxt
  sndWnd := sk.sndWnd
  rcvNxt := sk.rcvNxt
  ctrlSent := sk.ctrlSent
  ctrlUnsent := sk.ctrlUnsent
  skShutdown := sk.skShutdown
  migDaddr := sk.migDaddr

def ServalSock.addrs (sk : ServalSock) : NetAddr × NetAddr := (sk.inetSaddr, sk.inetDaddr)

/-- How far the answers to a packet have come: the next question to the
environment, and the source of the last transmission that found a target. -/
structure Course where
  tick : Nat
  source : Option NetAddr

private def Course.bump (course : Course) : Course := { course with tick := course.tick + 1 }

/-- A transmission that finds a target leaves no destination. -/
def Course.addrs (course : Course) (sk : ServalSock) : NetAddr × NetAddr :=
  match course.source with
  | none => sk.addrs
  | some saddr => (saddr, zeroAddr)

/-- The source behind the round for a target, and whether the loop gets past
the target. -/
def sourceOf (env : SalEnv) (target : Target) (saddr : NetAddr) : NetAddr × Bool :=
  match target.type with
  | .delay => (saddr, true)
  | .drop => (saddr, false)
  | _ =>
    match targetDev env target with
    | .ok (some dev) => ((env.devAddr dev).getD saddr, true)
    | _ => (saddr, false)

/-- The loop ends with the last target, or when there is no memory for a copy
of the packet. -/
def loopBehind (env : SalEnv) : Target → List Target → Nat → NetAddr → Nat × NetAddr
  | target, [], tick, saddr => (tick + 1, (sourceOf env target saddr).1)
  | target, next :: rest, tick, saddr =>
    if env.alloc tick then
      loopBehind env (if (sourceOf env target saddr).2 then next else target) rest (tick + 1)
        (sourceOf env target saddr).1
    else (tick + 1, saddr)

/-- The course behind one transmission of the socket. -/
def transmitBehind (env : SalEnv) (host : SalHost) (course : Course) : Course :=
  match serviceFind host.table host.sk.peerSrvid.toList serviceIdMaxPrefixBits with
  | .ok (some se) =>
    match serviceIterInit se env.mode (env.random (course.tick + 1)) with
    | (true, iter) =>
      match iter.targets with
      | [] => course.bump
      | target :: rest =>
        let (tick, saddr) := loopBehind env target rest (course.tick + 1)
            (course.source.getD host.sk.inetSaddr)
        ⟨tick, some saddr⟩
    | _ => course.bump
  | _ => course.bump

section

variable {env : SalEnv} {skb : CtrlSkb} {fuel : Nat} {iter iter' : ServiceIter}
  {host host' : SalHost} {target : Target} {err err' : Int} {freed : Bool} {next : Option Target}

private theorem sourceOf_again (env : SalEnv) (target : Target) (saddr saddr' : NetAddr) :
    (sourceOf env target saddr).2 = (sourceOf env target saddr').2 := by
  simp only [sourceOf]
  split
  · rfl
  · rfl
  · split <;> rfl

/-- One round of the loop. -/
theorem transmitTargets_round
    (stepped : serviceIterNext iter = .ok (next, iter'))
    (run : transmitTargets env skb (fuel + 1) iter target err freed host = .ok (err', host')) :
    (next.isSome = true ∧ env.alloc host.tick = false ∧ host' = host.bump) ∨
      (next.isSome = true → env.alloc host.tick = true) ∧ ∃ err middle freed,
        middle.tick = host.tick + 1 ∧
        middle.sk.inetSaddr = (sourceOf env target host.sk.inetSaddr).1 ∧
        if (sourceOf env target host.sk.inetSaddr).2 then
          (match next with
            | none => Except.ok (err, middle)
            | some target => transmitTargets env skb fuel iter' target err freed middle) =
            .ok (err', host')
        else transmitTargets env skb fuel iter' target err freed middle = .ok (err', host') := by
  rw [transmitTargets, stepped, ok_bind] at run
  dsimp only at run
  split_ifs at run with failed gone
  · cases run
    simp only [Bool.and_eq_true, Bool.not_eq_true'] at failed
    exact .inl ⟨failed.1, failed.2, rfl⟩
  refine .inr ⟨fun some => by simpa [some] using failed, ?_⟩
  rw [sourceOf]
  split at run
  · rename_i delay
    simp only [delay]
    exact ⟨_, host.bump, freed, rfl, rfl, run⟩
  · rename_i drop
    simp only [drop]
    exact ⟨_, host.bump, _, rfl, rfl, run⟩
  rename_i noDelay noDrop
  obtain ⟨dev, device, run⟩ := of_bind run
  simp only [device]
  let middle := host.bump.withAddrs host.sk.inetSaddr (targetDaddr host.sk.inetDaddr target)
  cases dev with
  | none => exact ⟨err, middle, freed, rfl, rfl, run⟩
  | some dev =>
    dsimp only at run ⊢
    cases source : env.devAddr dev with
    | none =>
      rw [source] at run
      exact ⟨err, middle, freed, rfl, rfl, run⟩
    | some saddr =>
      rw [source] at run
      obtain ⟨⟨localErr, sent⟩, queued, run⟩ := of_bind run
      obtain ⟨tick, same⟩ := queueXmit_tick queued
      exact ⟨_, sent, freed, tick, by rw [same]; rfl, run⟩

/-- The loop does not end behind its last target, if it does not get past it. -/
theorem transmitTargets_endless (none : iter.targets = [])
    (stuck : (sourceOf env target host.sk.inetSaddr).2 = false) :
    transmitTargets env skb fuel iter target err freed host ≠ .ok (err', host') := by
  induction fuel generalizing iter err freed host with
  | zero => rintro ⟨⟩
  | succ fuel ih =>
    intro run
    obtain ⟨⟨next, iter'⟩, stepped, -⟩ := of_bind run
    have split := serviceIterNext_targets stepped
    rw [none] at split
    obtain ⟨last, rest⟩ := List.append_eq_nil_iff.mp split.symm
    rcases transmitTargets_round stepped run with ⟨more, -⟩ | ⟨-, _, middle, _, -, source, run⟩
    · cases next with
      | none => cases more
      | some target => cases last
    rw [stuck, if_neg Bool.false_ne_true] at run
    exact ih rest (by rw [sourceOf_again env target _ host.sk.inetSaddr, stuck]) run

private theorem transmitTargets_behind
    (run : transmitTargets env skb fuel iter target err freed host = .ok (err', host')) :
    (host'.tick, host'.sk.inetSaddr) =
      loopBehind env target iter.targets host.tick host.sk.inetSaddr := by
  induction fuel generalizing iter target err freed host with
  | zero => cases run
  | succ fuel ih =>
    obtain ⟨⟨next, iter'⟩, stepped, -⟩ := of_bind run
    have split := serviceIterNext_targets stepped
    rcases transmitTargets_round stepped run with
      ⟨more, failed, rfl⟩ | ⟨copies, _, middle, _, tick, source, run⟩
    · cases next with
      | none => cases more
      | some next =>
        rw [split, Option.toList_some, List.singleton_append, loopBehind, failed]
        rfl
    cases next with
    | none =>
      rw [serviceIterNext_none stepped, loopBehind, ← tick, ← source]
      split at run
      · cases run
        rfl
      · rename_i stuck
        rw [serviceIterNext_none stepped] at split
        refine absurd run (transmitTargets_endless split.symm ?_)
        rw [sourceOf_again env target _ host.sk.inetSaddr]
        simpa using stuck
    | some next =>
      rw [split, Option.toList_some, List.singleton_append, loopBehind, if_pos (copies rfl),
        ← tick, ← source]
      split at run
      · rename_i past
        rw [if_pos past]
        exact ih run
      · rename_i stuck
        rw [if_neg stuck]
        exact ih run

end

/-- The host has only sent answers since `start`, and has come as far as
`course` says. -/
structure Tracks (start host : SalHost) (course : Course) : Prop where
  flow : host.sk.flow = start.sk.flow
  table : host.table = start.table
  peerSrvid : host.sk.peerSrvid = start.sk.peerSrvid
  tick : host.tick = course.tick
  addrs : host.sk.addrs = course.addrs start.sk

namespace Tracks

variable {env : SalEnv} {start host host' : SalHost} {course : Course}

private theorem bump (tracks : Tracks start host course) : Tracks start host.bump course.bump :=
  ⟨tracks.flow, tracks.table, tracks.peerSrvid, congrArg Nat.succ tracks.tick, tracks.addrs⟩

private theorem source (tracks : Tracks start host course) :
    host.sk.inetSaddr = course.source.getD start.sk.inetSaddr := by
  have addrs := congrArg Prod.fst tracks.addrs
  rw [Course.addrs] at addrs
  cases source : course.source with
  | none | some saddr =>
    rw [source] at addrs
    exact addrs

private theorem transmitted {skb : CtrlSkb} {err : Int} (tracks : Tracks start host course)
    (run : servalSalTransmitSkb env host skb false = .ok (err, host')) :
    host'.tick = (transmitBehind env start course).tick ∧
      host'.sk.addrs = (transmitBehind env start course).addrs start.sk := by
  have ended : host' = host.bump → host'.tick = course.bump.tick ∧
      host'.sk.addrs = course.bump.addrs start.sk := by
    rintro rfl
    exact ⟨tracks.bump.tick, tracks.bump.addrs⟩
  obtain ⟨found, lookup, run⟩ := of_bind run
  have searched : serviceFind start.table start.sk.peerSrvid.toList serviceIdMaxPrefixBits =
      .ok found := by
    rw [← tracks.table, ← tracks.peerSrvid]
    exact lookup
  rw [transmitBehind, searched, ← tracks.tick]
  cases found with
  | none =>
    cases run
    exact ended rfl
  | some se =>
    rcases started : serviceIterInit se env.mode (env.random (host.tick + 1)) with ⟨ok, iter⟩
    have start' : serviceIterInit se env.mode (env.random host.bump.tick) = (ok, iter) := started
    simp only [start'] at run
    simp only [started]
    cases ok with
    | false =>
      cases run
      exact ended rfl
    | true =>
      obtain ⟨⟨first, iter'⟩, stepped, run⟩ := of_bind run
      dsimp only
      cases first with
      | none =>
        cases run
        rw [serviceIterNext_none stepped]
        exact ended rfl
      | some target =>
        obtain ⟨⟨err', middle⟩, looped, run⟩ := of_bind run
        cases run
        have behind := transmitTargets_behind looped
        have saddr : host.bump.sk.inetSaddr = course.source.getD start.sk.inetSaddr :=
          tracks.source
        rw [saddr] at behind
        rw [serviceIterNext_targets stepped]
        exact ⟨congrArg Prod.fst behind, Prod.ext (congrArg Prod.snd behind) rfl⟩

variable (deliverable : Deliverable env start.table start.sk.peerSrvid)

include deliverable

private theorem transmit (tracks : Tracks start host course) (skb : CtrlSkb) :
    ∃ err host', servalSalTransmitSkb env host skb false = .ok (err, host') ∧
      Tracks start host' (transmitBehind env start course) := by
  obtain ⟨⟨err, host'⟩, run⟩ := deliverable host skb false tracks.table tracks.peerSrvid
  obtain ⟨tick, addrs⟩ := tracks.transmitted run
  have kept : host'.sk.flow = host.sk.flow ∧ host'.table = host.table ∧
      host'.sk.peerSrvid = host.sk.peerSrvid := by
    obtain ⟨_, _, _, _, rfl, -⟩ := servalSalTransmitSkb_sends run
    exact ⟨rfl, rfl, rfl⟩
  exact ⟨err, host', run, kept.1.trans tracks.flow, kept.2.1.trans tracks.table,
    kept.2.2.trans tracks.peerSrvid, tick, addrs⟩

private theorem xmitAll (tracks : Tracks start host course) (packets : List (List UInt8)) :
    ∃ host', Serval.xmitAll env host packets = .ok host' ∧
      Tracks start host' ((transmitBehind env start)^[packets.length] course) := by
  induction packets generalizing host course with
  | nil => exact ⟨host, rfl, tracks⟩
  | cons data rest ih =>
    obtain ⟨err, middle, sent, tracks⟩ := tracks.transmit deliverable (ctrlSkb 0 0 data)
    obtain ⟨host', run, tracks⟩ := ih tracks
    refine ⟨host', ?_, tracks⟩
    rw [Serval.xmitAll, sent]
    exact run

end Tracks

/-! ## The parts of the handlers -/

structure OldAck (sk : ServalSock) (hdr : SalHeader) : Prop where
  ackno : hdr.ackno = sk.sndUna
  covers : (sk.ctrlSent.dropWhile fun skb => after hdr.ackno skb.cb.verno) = sk.ctrlSent
  noMigration : hdr.hasRsyn = true ∨ sk.salState = .initial ∨ sk.salState = .sent

private theorem OldAck.still {sk : ServalSock} {hdr : SalHeader} (old : OldAck sk hdr) :
    ¬ ((sk.salState = .recv ∨ sk.salState = .sentRecv) ∧ !hdr.hasRsyn) := by
  rcases old.noMigration with rsyn | state | state
  · simp [rsyn]
  · simp [state]
  · simp [state]

private theorem OldAck.of_flow {sk sk' : ServalSock} {hdr : SalHeader} (same : sk'.flow = sk.flow)
    (old : OldAck sk hdr) : OldAck sk' hdr := by
  have una : sk'.sndUna = sk.sndUna := congrArg FlowState.sndUna same
  have sent : sk'.ctrlSent = sk.ctrlSent := congrArg FlowState.ctrlSent same
  have state : sk'.salState = sk.salState := congrArg FlowState.salState same
  refine ⟨?_, ?_, ?_⟩
  · rw [una]
    exact old.ackno
  · rw [sent]
    exact old.covers
  · rw [state]
    exact old.noMigration

section

variable {env : SalEnv} {host host' : SalHost} {skb : RcvSkb} {acked wanted : Bool}

/-- An acknowledgement changes something exactly when it is accepted and not
an old one. -/
theorem servalSalAckProcess_flow_iff {hdr : SalHeader}
    (run : servalSalAckProcess env host hdr = .ok (acked, host')) :
    host'.sk.flow = host.sk.flow ↔ (acceptsAck host.sk hdr = true → OldAck host.sk hdr) := by
  have cleaned : (ackedSk host.sk hdr.ackno).ctrlSent =
        host.sk.ctrlSent.dropWhile fun skb => after hdr.ackno skb.cb.verno :=
    ackedSk_ctrlSent host.sk hdr.ackno
  rw [servalSalAckProcess] at run
  split at run
  · rename_i refused
    cases run
    refine ⟨fun _ accepted => ?_, fun _ => rfl⟩
    rw [accepted] at refused
    cases refused
  rename_i accepted
  have accepts : acceptsAck host.sk hdr = true := by simpa using accepted
  dsimp only at run
  split at run
  · rename_i completes
    obtain ⟨last, sent, run⟩ := of_bind run
    cases run
    obtain ⟨_, _, _, _, rfl, -⟩ := xmitAll_sends sent
    have pending : host.sk.salState = .recv ∨ host.sk.salState = .sentRecv := completes.1
    constructor
    · intro same
      have state : host.sk.salState.afterAck = host.sk.salState :=
        congrArg FlowState.salState same
      rcases pending with pending | pending
      · rw [pending] at state
        cases state
      · rw [pending] at state
        cases state
    · exact fun old => absurd completes (old accepts).still
  · rename_i completes
    cases run
    constructor
    · intro same _
      refine ⟨congrArg FlowState.sndUna same,
        cleaned.symm.trans (congrArg FlowState.ctrlSent same), ?_⟩
      by_cases rsyn : hdr.hasRsyn = true
      · exact .inl rsyn
      right
      cases state : host.sk.salState with
      | initial => exact .inl rfl
      | sent => exact .inr rfl
      | recv => exact absurd ⟨.inl state, by simpa using rsyn⟩ completes
      | sentRecv =>
        exact absurd ⟨.inr state, by simpa using rsyn⟩ completes
    · intro old
      obtain ⟨ackno, covers, -⟩ := old accepts
      show FlowState.mk _ _ _ hdr.ackno _ _ _ (ackedSk host.sk hdr.ackno).ctrlSent _ _ _ = _
      rw [cleaned, covers, ackno]
      rfl

private theorem Tracks.ack {start : SalHost} {course : Course} {hdr : SalHeader}
    (tracks : Tracks start host course)
    (old : acceptsAck host.sk hdr = true → OldAck host.sk hdr) :
    ∃ host', servalSalAckProcess env host hdr = .ok (acceptsAck host.sk hdr, host') ∧
      Tracks start host' course := by
  cases accepts : acceptsAck host.sk hdr with
  | false =>
    refine ⟨host, ?_, tracks⟩
    rw [servalSalAckProcess, accepts]
    rfl
  | true =>
    have run : servalSalAckProcess env host hdr =
        .ok (true, host.withSk (ackedSk host.sk hdr.ackno)) := by
      rw [servalSalAckProcess, accepts, if_neg (by decide)]
      exact if_neg (old accepts).still
    have addrs : (ackedSk host.sk hdr.ackno).addrs = host.sk.addrs := rfl
    have peer : (ackedSk host.sk hdr.ackno).peerSrvid = host.sk.peerSrvid := rfl
    have flow := (servalSalAckProcess_flow_iff run).mpr old
    exact ⟨_, run, flow.trans tracks.flow, tracks.table, peer.trans tracks.peerSrvid,
      tracks.tick, addrs.trans tracks.addrs⟩

private abbrev Reply.Quiet (reply : Reply) : Prop := reply.fin = false ∧ reply.reset = false

end

/-! ## Packets that are only answered -/

/-- The nonce of a whole control extension is not compared if it has the SYN
bit. -/
def bypassesNonce (hdr : SalHeader) : Bool :=
  match hdr.ctrlExt with
  | none => false
  | some ext => 32 ≤ hdr.length && ext.extLength = 20 && ext.syn

section

variable (env : SalEnv) (host : SalHost) (skb : RcvSkb)

def wantsTransport : Bool := skb.hasTransportHdr || (skb.hdr.hasFin && takesFin host.sk.skState)

/-- In front of the transport protocol a FIN that the socket has had is
acknowledged again. -/
def frontBehind : Course :=
  let course := ⟨host.tick, none⟩
  if skb.hdr.hasFin && !takesFin host.sk.skState then
    if env.alloc host.tick then transmitBehind env host course.bump else course.bump
  else course

/-- The course behind all answers. The transport protocol sends what it has to
say to the packet. -/
def answersBehind : Course :=
  let course := frontBehind env host skb
  if wantsTransport host skb then
    let reply := env.transport.receive course.tick
    (transmitBehind env host)^[(reply.early ++ reply.late).length] course.bump
  else course

private def beforeTransport : Except Fault SalHost := do
  let front ← reackIf env host (skb.hdr.hasFin && !takesFin host.sk.skState)
  if host.sk.skState = .finwait2 then .ok front
  else do
    let (_, front) ← servalSalAckProcess env front skb.hdr
    .ok front

def answers : Except Fault SalHost := do
  let front ← beforeTransport env host skb
  receiveIf env front (wantsTransport host skb)

/-- The packet changes neither the state nor a number: its FIN and its
acknowledgement are nothing to the handler of the state, and the transport
protocol only sends packets. -/
structure Ignored : Prop where
  fin : skb.hdr.hasFin = true → takesFin host.sk.skState = true → bypassesNonce skb.hdr = false
  ack :
    acceptsAck host.sk skb.hdr = true → host.sk.skState ≠ .finwait2 →
      OldAck host.sk skb.hdr ∧
        (host.sk.skState = .connected ∨ host.sk.skState = .closewait ∨
          host.sk.skState = .finwait1 ∧ skb.hdr.hasFin = true)
  transport :
    wantsTransport host skb = true →
      (env.transport.receive (frontBehind env host skb).tick).Quiet

end

section

variable {env : SalEnv} {host host' : SalHost} {skb : RcvSkb} {wanted : Bool}

private theorem xmitAll_append (env : SalEnv) (host : SalHost) (first second : List (List UInt8)) :
    xmitAll env host (first ++ second) =
      (xmitAll env host first >>= fun host => xmitAll env host second) := by
  induction first generalizing host with
  | nil => rfl
  | cons data rest ih =>
    rw [List.cons_append, xmitAll, xmitAll]
    cases servalSalTransmitSkb env host (ctrlSkb 0 0 data) false with
    | error fault => rfl
    | ok result => exact ih result.2

private theorem receiveIf_eq (quiet : wanted = true → (env.transport.receive host.tick).Quiet) :
    receiveIf env host wanted =
      if wanted then
        xmitAll env host.bump
          ((env.transport.receive host.tick).early ++ (env.transport.receive host.tick).late)
      else .ok host := by
  rw [receiveIf]
  split
  · rename_i isWanted
    obtain ⟨noFin, noReset⟩ := quiet isWanted
    rw [runReply, xmitAll_append, noFin, noReset]
    cases xmitAll env host.bump (env.transport.receive host.tick).early with
    | error fault => rfl
    | ok first =>
      show (xmitAll env first (env.transport.receive host.tick).late >>=
        pure) = xmitAll env first (env.transport.receive host.tick).late
      exact bind_pure _
  · rfl

section

variable (deliverable : Deliverable env host.table host.sk.peerSrvid)

include deliverable

private theorem beforeTransport_tracks
    (old : acceptsAck host.sk skb.hdr = true → host.sk.skState ≠ .finwait2 →
      OldAck host.sk skb.hdr) :
    ∃ front, beforeTransport env host skb = .ok front ∧
      Tracks host front (frontBehind env host skb) := by
  have begins : Tracks host host ⟨host.tick, none⟩ := ⟨rfl, rfl, rfl, rfl, rfl⟩
  obtain ⟨first, reacked, tracks⟩ : ∃ first,
      reackIf env host (skb.hdr.hasFin && !takesFin host.sk.skState) = .ok first ∧
        Tracks host first (frontBehind env host skb) := by
    rw [reackIf, frontBehind]
    split
    · rw [servalSalSendAck]
      cases env.alloc host.tick with
      | false => exact ⟨_, rfl, begins.bump⟩
      | true =>
        obtain ⟨err, first, sent, tracks⟩ := begins.bump.transmit deliverable
          (ctrlSkb svhAck host.sk.sndNxt [])
        refine ⟨first, ?_, tracks⟩
        simp only [Bool.not_true, Bool.false_eq_true, if_false, sent, ok_bind]
    · exact ⟨host, rfl, begins⟩
  rw [beforeTransport, reacked, ok_bind]
  split
  · exact ⟨first, rfl, tracks⟩
  · rename_i other
    obtain ⟨front, run, tracks⟩ := @Tracks.ack env _ _ _ _ tracks (fun accepts => by
      rw [reackIf_acceptsAck reacked] at accepts
      exact (old accepts other).of_flow tracks.flow)
    exact ⟨front, by rw [run]; rfl, tracks⟩

private theorem Ignored.answered (ignored : Ignored env host skb) :
    ∃ host', answers env host skb = .ok host' ∧
      Tracks host host' (answersBehind env host skb) := by
  obtain ⟨front, ready, tracks⟩ := beforeTransport_tracks deliverable
    fun accepts other => (ignored.ack accepts other).1
  have quiet := ignored.transport
  rw [← tracks.tick] at quiet
  rw [answers, ready, ok_bind, receiveIf_eq quiet, answersBehind]
  split
  · rw [← tracks.tick]
    exact tracks.bump.xmitAll deliverable _
  · exact ⟨front, rfl, tracks⟩

end

namespace Ignored

end Ignored

variable (deliverable : Deliverable env host.table host.sk.peerSrvid)
  (valid : hasValidControlExtension host.sk skb.hdr = bypassesNonce skb.hdr)

include deliverable

section

include valid

end

end

/-! ## Migrations -/

/-- An answer to a migration that is not on its way, or a migration whose nonce
is compared. -/
def NoMigration (env : SalEnv) (host : SalHost) (hdr : SalHeader) : Prop :=
  hdr.hasRsyn = true →
    if hdr.hasAck then
      env.devByIndex host.sk.migDevIf = none ∨
        host.sk.salState = .initial ∨ host.sk.salState = .recv
    else
      bypassesNonce hdr = false

section

variable {env : SalEnv} {host host' : SalHost} {skb : RcvSkb}

end

/-! ## Packets with a wrong nonce -/

/-- Besides being ignored, the packet is no reset and nothing to a migration, and
the answers to it leave the addresses alone: none of them finds a target, or
the socket has no destination and the source is the one that they take. -/
structure Harmless (env : SalEnv) (host : SalHost) (skb : RcvSkb) : Prop extends
    Ignored env host skb where
  rst : skb.hdr.hasRst = false
  migration : NoMigration env host skb.hdr
  addrs :
    ∀ saddr ∈ (answersBehind env host skb).source,
      host.sk.inetSaddr = saddr ∧ host.sk.inetDaddr = zeroAddr

section

variable {env : SalEnv} {host : SalHost} {skb : RcvSkb}

end

end Serval
