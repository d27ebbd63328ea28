import Serval.Sal.State

/-!
# Single acts

What a call can do to a socket that does not listen, as a sequence of small
acts: packets that the socket sends, answers, changes of its fields, control
packets with a new number, and its end.
-/

namespace Serval

open Serval.Support

inductive Sendable (sk : ServalSock) : CtrlSkb → Prop
  | data (data : List UInt8) : Sendable sk (ctrlSkb 0 0 data)
  | ack : Sendable sk (ctrlSkb svhAck sk.sndNxt [])
  | connAck (data : List UInt8) : Sendable sk (ctrlSkb (svhAck + svhConnAck) sk.sndNxt data)
  | reset : Sendable sk (ctrlSkb (svhRst + svhAck) sk.sndNxt [])
  | queued {skb : CtrlSkb} (waits : skb ∈ sk.ctrlQueue) : Sendable sk skb

def OwnPacket (env : SalEnv) (host : SalHost) (p : WirePacket) : Prop :=
  ∃ skb, Sendable host.sk skb ∧ Transmitted env host skb p

/-- What may happen on one occasion: the changes of the socket, the control
packets with a new number together with the socket that queues them, the use
of a number for nothing, and the answers to a packet. -/
structure Means where
  change : ServalSock → ServalSock → Prop
  push : ServalSock → ServalSock → CtrlSkb → Prop
  skip : Prop
  answer : WirePacket → Prop

/-- A sequence of acts, and how many numbers it has used up. -/
inductive Acts (env : SalEnv) (means : Means) : Nat → SalHost → SalHost → Prop
  | refl {host : SalHost} : Acts env means 0 host host
  | send {n : Nat} {host middle host' : SalHost} {skb : CtrlSkb} {useCopy : Bool} {err : Int}
      (acts : Acts env means n host middle) (own : Sendable middle.sk skb)
      (sent : servalSalTransmitSkb env middle skb useCopy = .ok (err, host')) :
      Acts env means n host host'
  | bump {n : Nat} {host middle : SalHost} (acts : Acts env means n host middle) :
      Acts env means n host middle.bump
  | answer {n : Nat} {host middle host' : SalHost} (acts : Acts env means n host middle)
      (sends : Sends means.answer middle host') :
      Acts env means n host host'
  | done {n : Nat} {host middle host' : SalHost} (acts : Acts env means n host middle)
      (ended : servalSalDone middle = .ok host') :
      Acts env means n host host'
  | change {n : Nat} {host middle : SalHost} {sk : ServalSock} (acts : Acts env means n host middle)
      (changed : means.change middle.sk sk) :
      Acts env means n host (middle.withSk sk)
  | push {n : Nat} {host middle host' : SalHost} {sk : ServalSock}
      {skb : CtrlSkb} {err : Int} (acts : Acts env means n host middle)
      (pushes : means.push middle.sk sk skb)
      (pushed : servalSalQueueAndPush env (middle.withSk sk) skb = .ok (err, host')) :
      Acts env means (n + 1) host host'
  | skip {n : Nat} {host middle : SalHost}
      (acts : Acts env means n host middle) (skips : means.skip) :
      Acts env means (n + 1) host (middle.withSk middle.sk.useVerno)

namespace Acts

variable {env : SalEnv} {means : Means} {n m : Nat} {host host' host'' : SalHost}

theorem trans (first : Acts env means n host host') (second : Acts env means m host' host'') :
    Acts env means (n + m) host host'' := by
  induction second with
  | refl => exact first
  | send _ own sent ih => exact .send (ih first) own sent
  | bump _ ih => exact .bump (ih first)
  | answer _ sends ih => exact .answer (ih first) sends
  | done _ ended ih => exact .done (ih first) ended
  | change _ changed ih => exact .change (ih first) changed
  | push _ pushes pushed ih => exact .push (ih first) pushes pushed
  | skip _ skips ih => exact .skip (ih first) skips

/-- What every act keeps, a sequence of acts keeps. The invariant may depend
on how many numbers were used. -/
theorem keeps {inv : Nat → SalHost → Prop}
    (send :
      ∀ {n : Nat} {middle after : SalHost}, inv n middle →
        Sends (OwnPacket env middle) middle after → inv n after)
    (answer :
      ∀ {n : Nat} {middle after : SalHost}, inv n middle →
        Sends means.answer middle after → inv n after)
    (done :
      ∀ {n : Nat} {middle after : SalHost}, inv n middle →
        servalSalDone middle = .ok after → inv n after)
    (change :
      ∀ {n : Nat} {middle : SalHost} {sk : ServalSock}, inv n middle →
        means.change middle.sk sk → inv n (middle.withSk sk))
    (push :
      ∀ {n : Nat} {middle after : SalHost} {sk : ServalSock} {skb : CtrlSkb}
        {err : Int}, inv n middle → means.push middle.sk sk skb →
        servalSalQueueAndPush env (middle.withSk sk) skb = .ok (err, after) → inv (n + 1) after)
    (skip :
      ∀ {n : Nat} {middle : SalHost}, inv n middle → means.skip →
        inv (n + 1) (middle.withSk middle.sk.useVerno))
    (start : inv 0 host) (acts : Acts env means n host host') :
    inv n host' := by
  induction acts with
  | refl => exact start
  | send _ own sent ih =>
    exact send (ih start) ((servalSalTransmitSkb_sends sent).mono fun _ one => ⟨_, own, one⟩)
  | bump _ ih => exact send (ih start) .bump
  | answer _ sends ih => exact answer (ih start) sends
  | done _ ended ih => exact done (ih start) ended
  | change _ changed ih => exact change (ih start) changed
  | push _ pushes pushed ih => exact push (ih start) pushes pushed
  | skip _ skips ih => exact skip (ih start) skips

end Acts

/-- What sending, numbering and ending change of a socket. -/
def Bookkeeping (sk sk' : ServalSock) : Prop :=
  ∃ state saddr daddr keyLen nxt una retransmits timer timewait shutdown sent unsent,
    (state = sk.skState ∨ state = .closed) ∧ sk' =
      { sk with
        skState := state
        inetSaddr := saddr
        inetDaddr := daddr
        hashKeyLen := keyLen
        sndNxt := nxt
        sndUna := una
        retransmits := retransmits
        retransmitTimer := timer
        twTimer := timewait
        skShutdown := shutdown
        ctrlSent := sent
        ctrlUnsent := unsent }

namespace Bookkeeping

variable {env : SalEnv} {host host' : SalHost}

theorem of_sends {sent : WirePacket → Prop} (sends : Sends sent host host') :
    Bookkeeping host.sk host'.sk := by
  obtain ⟨_, _, _, _, rfl, -⟩ := sends
  exact ⟨_, _, _, _, _, _, _, _, _, _, _, _, .inl rfl, rfl⟩

theorem of_done (ended : servalSalDone host = .ok host') : Bookkeeping host.sk host'.sk := by
  obtain ⟨_, _, _, _, _, rfl, -⟩ := servalSalDone_spec ended
  exact ⟨_, _, _, _, _, _, _, _, _, _, _, _, .inr rfl, rfl⟩

theorem of_push {skb : CtrlSkb} {err : Int}
    (pushed : servalSalQueueAndPush env host skb = .ok (err, host')) :
    Bookkeeping host.sk host'.sk := by
  obtain ⟨_, _, _, _, _, _, _, _, _, rfl⟩ := servalSalQueueAndPush_frame pushed
  exact ⟨_, _, _, _, _, _, _, _, _, _, _, _, .inl rfl, rfl⟩

end Bookkeeping

/-- What no act but a change or a new packet has a part in. -/
theorem Acts.keeps_sk {env : SalEnv} {means : Means} {n : Nat} {host host' : SalHost}
    {inv : ServalSock → Prop}
    (books : ∀ {sk sk' : ServalSock}, Bookkeeping sk sk' → inv sk → inv sk')
    (change : ∀ {sk sk' : ServalSock}, means.change sk sk' → inv sk → inv sk')
    (push : ∀ {sk sk' : ServalSock} {skb : CtrlSkb}, means.push sk sk' skb → inv sk → inv sk')
    (start : inv host.sk) (acts : Acts env means n host host') : inv host'.sk := by
  refine @Acts.keeps _ _ _ _ _ (fun _ after => inv after.sk) ?_ ?_ ?_ ?_ ?_ ?_ start acts
  · exact fun kept sends => books (.of_sends sends) kept
  · exact fun kept sends => books (.of_sends sends) kept
  · exact fun kept ended => books (.of_done ended) kept
  · exact fun kept changed => change changed kept
  · exact fun kept pushes pushed => books (.of_push pushed) (push pushes kept)
  · exact fun kept _ => books ⟨_, _, _, _, _, _, _, _, _, _, _, _, .inl rfl, rfl⟩ kept

def Does (env : SalEnv) (means : Means) (k : Nat) (host host' : SalHost) : Prop :=
  ∃ n ≤ k, Acts env means n host host'

namespace Does

variable {env : SalEnv} {means : Means} {k l : Nat} {host host' host'' : SalHost}

theorem refl : Does env means 0 host host := ⟨0, Nat.le_refl 0, .refl⟩

theorem nothing : Does env means k host host := ⟨0, Nat.zero_le k, .refl⟩

theorem trans (first : Does env means k host host') (second : Does env means l host' host'') :
    Does env means (k + l) host host'' := by
  obtain ⟨n, few, acts⟩ := first
  obtain ⟨m, few', acts'⟩ := second
  exact ⟨n + m, Nat.add_le_add few few', acts.trans acts'⟩

theorem mono (more : k ≤ l) (does : Does env means k host host') :
    Does env means l host host' := by
  obtain ⟨n, few, acts⟩ := does
  exact ⟨n, few.trans more, acts⟩

theorem send {skb : CtrlSkb} {useCopy : Bool} {err : Int} (own : Sendable host.sk skb)
    (sent : servalSalTransmitSkb env host skb useCopy = .ok (err, host')) :
    Does env means 0 host host' :=
  ⟨0, Nat.le_refl 0, .send .refl own sent⟩

theorem answers (sent : Sends means.answer host host') :
    Does env means 0 host host' :=
  ⟨0, Nat.le_refl 0, .answer .refl sent⟩

theorem bump : Does env means 0 host host.bump := ⟨0, Nat.le_refl 0, .bump .refl⟩

theorem done (ended : servalSalDone host = .ok host') :
    Does env means 0 host host' :=
  ⟨0, Nat.le_refl 0, .done .refl ended⟩

theorem change {sk : ServalSock} (changed : means.change host.sk sk) :
    Does env means 0 host (host.withSk sk) :=
  ⟨0, Nat.le_refl 0, .change .refl changed⟩

theorem push {sk : ServalSock} {skb : CtrlSkb} {err : Int} (pushes : means.push host.sk sk skb)
    (pushed : servalSalQueueAndPush env (host.withSk sk) skb = .ok (err, host')) :
    Does env means 1 host host' :=
  ⟨1, Nat.le_refl 1, .push .refl pushes pushed⟩

theorem skip (skips : means.skip) : Does env means 1 host (host.withSk host.sk.useVerno) :=
  ⟨1, Nat.le_refl 1, .skip .refl skips⟩

end Does

def Means.still (means : Means) : Means :=
  { means with
    change := fun sk sk' => means.change sk sk' ∧ SameSending sk sk' }

theorem Does.tweak {env : SalEnv} {means : Means} {host : SalHost} {sk : ServalSock}
    (changed : means.change host.sk sk)
    (same : SameSending host.sk sk := by exact ⟨rfl, rfl, rfl, rfl, rfl, rfl⟩) :
    Does env means.still 0 host (host.withSk sk) :=
  .change ⟨changed, same⟩

theorem Does.of_still {env : SalEnv} {means : Means} {k : Nat} {host host' : SalHost}
    (does : Does env means.still k host host') :
    Does env means k host host' := by
  obtain ⟨n, few, acts⟩ := does
  refine ⟨n, few, ?_⟩
  clear few
  induction acts with
  | refl => exact .refl
  | send _ own sent ih => exact .send ih own sent
  | bump _ ih => exact .bump ih
  | answer _ sends ih => exact .answer ih sends
  | done _ ended ih => exact .done ih ended
  | change _ changed ih => exact .change ih changed.1
  | push _ pushes pushed ih => exact .push ih pushes pushed
  | skip _ skips ih => exact .skip ih skips

/-! ## What every call may do -/

section

variable {env : SalEnv} {means : Means} {host host' : SalHost} {err : Int}

theorem servalSalSendAck_does (run : servalSalSendAck env host = .ok (err, host')) :
    Does env means 0 host host' := by
  rw [servalSalSendAck] at run
  split at run
  · cases run
    exact .bump
  · exact Does.bump.trans (.send .ack run)

theorem xmitAll_does {packets : List (List UInt8)} (run : xmitAll env host packets = .ok host') :
    Does env means 0 host host' := by
  induction packets generalizing host with
  | nil =>
    cases run
    exact .refl
  | cons data rest ih =>
    obtain ⟨⟨err, middle⟩, sent, run⟩ := of_bind run
    exact (Does.send (.data data) sent).trans (ih run)

theorem servalSalRcvReset_does (run : servalSalRcvReset host = .ok host') :
    Does env means 0 host host' := by
  rw [servalSalRcvReset] at run
  split at run
  · cases run
    exact .refl
  · exact .done run

def finFlags (state : RsynState) : Nat :=
  match state with
  | .sent => svhFin + svhRsyn
  | .recv => svhFin + svhRsyn + svhAck
  | _ => svhFin

def ServalSock.ending (sk : ServalSock) : ServalSock :=
  { sk with sndNxt := sk.sndNxt + 1, finSent := true }

theorem servalSalSendFin_does (may : ∀ sk, means.push sk sk.ending
      (ctrlSkb (finFlags sk.salState) sk.sndNxt []))
    (run : servalSalSendFin env host = .ok (err, host')) :
    Does env means 1 host host' :=
  .push (may host.sk) run

theorem runReply_does {reply : Reply} (may : reply.fin = true → ∀ sk, means.push sk sk.ending
      (ctrlSkb (finFlags sk.salState) sk.sndNxt []))
    (run : runReply env host reply = .ok host') :
    Does env means 1 host host' := by
  obtain ⟨first, early, run⟩ := of_bind run
  obtain ⟨second, finned, run⟩ := of_bind run
  obtain ⟨third, late, run⟩ := of_bind run
  have sent : Does env means 0 host first := xmitAll_does early
  have ended : Does env means 1 first second := by
    rw [finIf] at finned
    split at finned
    · rename_i fin
      obtain ⟨⟨err, middle⟩, pushed, finned⟩ := of_bind finned
      cases finned
      exact servalSalSendFin_does (may fin) pushed
    · cases finned
      exact .nothing
  have more : Does env means 0 second third := xmitAll_does late
  have last : Does env means 0 third host' := by
    split at run
    · exact servalSalRcvReset_does run
    · cases run
      exact .refl
  exact ((sent.trans ended).trans more).trans last

end

/-! ## A received packet -/

def Transport.EndsOnPacket (transport : Transport) : Prop :=
  ∃ tick, (transport.receive tick).fin = true ∨ (transport.requestState tick).fin = true ∨
    (transport.respondState tick).fin = true

structure SavedFrom (skb : RcvSkb) (sk : ServalSock) : Prop where
  peerFlowid : sk.peerFlowid = skb.hdr.srcFlowid
  peerNonce : some sk.peerNonce = skb.hdr.ctrlExt.map ControlExt.nonce
  rcvNxt : sk.rcvNxt = skb.hdr.verno + 1

/-- The end of a connection, as far as packets of the peer bring it about. -/
inductive Moves : SalState → SalState → Prop
  | finwait2 : Moves .finwait1 .finwait2
  | bothEnd : Moves .finwait1 .timewait
  | closing : Moves .finwait1 .closing
  | peerEnds : Moves .finwait2 .timewait
  | acked : Moves .closing .timewait

/-- The changes of a socket by a packet; `start` is the socket that the packet
met. An acknowledgement is looked at before the transport protocol can end
our side. A reset by the transport protocol does not keep the handlers of a
handshake and of a FIN from setting the state afterwards. -/
inductive Received (env : SalEnv) (skb : RcvSkb) (start : ServalSock) :
    ServalSock → ServalSock → Prop
  | acked {sk : ServalSock} (accepts : acceptsAck sk skb.hdr = true)
      (early : sk.finSent = start.finSent) :
      Received env skb start sk (ackedSk sk skb.hdr.ackno)
  | migrated {sk : ServalSock} (pending : sk.salState = .recv ∨ sk.salState = .sentRecv)
      (noRsyn : skb.hdr.hasRsyn = false) :
      Received env skb start sk (takeMigDaddr sk)
  | rsynSent {sk : ServalSock} (saddr : Option NetAddr) (rsyn : skb.hdr.hasRsyn = true) :
      Received env skb start sk (takeMigDev sk saddr)
  | rsynNoted {sk : ServalSock} (rsyn : skb.hdr.hasRsyn = true) :
      Received env skb start sk (noteMigDaddr sk skb.saddr)
  | expected {sk : ServalSock} (rsyn : skb.hdr.hasRsyn = true) :
      Received env skb start sk (sk.expect skb.hdr.verno)
  | rsyn {sk : ServalSock} (rsyn : skb.hdr.hasRsyn = true)
      (valid : hasValidControlExtension sk skb.hdr = true) :
      Received env skb start sk
        ((migratingSk sk skb.saddr).expect skb.hdr.verno)
  | fin {sk : ServalSock} (fin : skb.hdr.hasFin = true)
      (valid : hasValidControlExtension sk skb.hdr = true) :
      Received env skb start sk (sk.endRcv.expect skb.hdr.verno)
  | responded {sk : ServalSock} (request : start.skState = .request)
      (synack : (skb.hdr.hasSyn && skb.hdr.hasAck) = true) :
      Received env skb start sk (saveResponse sk skb)
  | connected {sk : ServalSock} (request : start.skState = .request)
      (synack : (skb.hdr.hasSyn && skb.hdr.hasAck) = true)
      (saved : SavedFrom skb sk) :
      Received env skb start sk { sk with skState := .connected }
  | saved {sk : ServalSock} (respond : start.skState = .respond) :
      Received env skb start sk (saveSource sk skb)
  | established {sk : ServalSock} (respond : start.skState = .respond) :
      Received env skb start sk { sk with skState := .connected }
  | closewait {sk : ServalSock} (connected : start.skState = .connected)
      (fin : skb.hdr.hasFin = true) :
      Received env skb start sk { sk with skState := .closewait }
  | moves {sk : ServalSock} {state : SalState} (moves : Moves sk.skState state) (timer : Bool) :
      Received env skb start sk
        { sk with skState := state, twTimer := timer }

inductive ReceivedPush (env : SalEnv) (skb : RcvSkb) : ServalSock → ServalSock → CtrlSkb → Prop
  | rsynack {sk : ServalSock} (rsyn : skb.hdr.hasRsyn = true) : ReceivedPush env skb sk sk.useVerno
        (ctrlSkb (svhRsyn + svhAck) sk.sndNxt [])
  | fin {sk : ServalSock} (ends : env.transport.EndsOnPacket) : ReceivedPush env skb sk sk.ending
        (ctrlSkb (finFlags sk.salState) sk.sndNxt [])

def receiving (env : SalEnv) (skb : RcvSkb) (start : ServalSock) : Means where
  change := Received env skb start
  push := ReceivedPush env skb
  skip := False
  answer := IsReset env skb

inductive Handled (env : SalEnv) (skb : RcvSkb) (start : ServalSock) :
    ServalSock → ServalSock → Prop
  | acked {sk : ServalSock} (accepts : acceptsAck sk skb.hdr = true)
      (early : sk.finSent = start.finSent) :
      Handled env skb start sk (ackedSk sk skb.hdr.ackno)
  | migrated {sk : ServalSock} (pending : sk.salState = .recv ∨ sk.salState = .sentRecv)
      (noRsyn : skb.hdr.hasRsyn = false) :
      Handled env skb start sk (takeMigDaddr sk)
  | fin {sk : ServalSock} (fin : skb.hdr.hasFin = true)
      (valid : hasValidControlExtension sk skb.hdr = true) :
      Handled env skb start sk (sk.endRcv.expect skb.hdr.verno)
  | responded {sk : ServalSock} (request : start.skState = .request)
      (synack : (skb.hdr.hasSyn && skb.hdr.hasAck) = true) :
      Handled env skb start sk (saveResponse sk skb)
  | connected {sk : ServalSock} (request : start.skState = .request)
      (synack : (skb.hdr.hasSyn && skb.hdr.hasAck) = true)
      (saved : SavedFrom skb sk) :
      Handled env skb start sk { sk with skState := .connected }
  | saved {sk : ServalSock} (respond : start.skState = .respond) :
      Handled env skb start sk (saveSource sk skb)
  | established {sk : ServalSock} (respond : start.skState = .respond) :
      Handled env skb start sk { sk with skState := .connected }
  | closewait {sk : ServalSock} (connected : start.skState = .connected)
      (fin : skb.hdr.hasFin = true) :
      Handled env skb start sk { sk with skState := .closewait }
  | moves {sk : ServalSock} {state : SalState} (moves : Moves sk.skState state) (timer : Bool) :
      Handled env skb start sk
        { sk with skState := state, twTimer := timer }

inductive HandledPush (env : SalEnv) : ServalSock → ServalSock → CtrlSkb → Prop
  | fin {sk : ServalSock} (ends : env.transport.EndsOnPacket) : HandledPush env sk sk.ending
        (ctrlSkb (finFlags sk.salState) sk.sndNxt [])

def handling (env : SalEnv) (skb : RcvSkb) (start : ServalSock) : Means where
  change := Handled env skb start
  push := HandledPush env
  skip := False
  answer := IsReset env skb

abbrev Tends (env : SalEnv) (skb : RcvSkb) (start : ServalSock) : Nat → SalHost → SalHost → Prop :=
  Does env (handling env skb start).still

section

variable {env : SalEnv} {skb : RcvSkb} {start : ServalSock} {host host' : SalHost}

theorem Handled.received {sk sk' : ServalSock} (handled : Handled env skb start sk sk') :
    Received env skb start sk sk' := by
  cases handled with
  | acked accepts early => exact .acked accepts early
  | migrated pending noRsyn => exact .migrated pending noRsyn
  | fin fin valid => exact .fin fin valid
  | responded request synack => exact .responded request synack
  | connected request synack saved => exact .connected request synack saved
  | saved respond => exact .saved respond
  | established respond => exact .established respond
  | closewait connected fin => exact .closewait connected fin
  | moves moves timer => exact .moves moves timer

theorem Does.received {k : Nat} (does : Does env (handling env skb start) k host host') :
    Does env (receiving env skb start) k host host' := by
  obtain ⟨n, few, acts⟩ := does
  refine ⟨n, few, ?_⟩
  induction acts with
  | refl => exact .refl
  | send _ own sent ih => exact .send (ih few) own sent
  | bump _ ih => exact .bump (ih few)
  | answer _ sends ih => exact .answer (ih few) sends
  | done _ ended ih => exact .done (ih few) ended
  | change _ changed ih => exact .change (ih few) changed.received
  | push _ pushes pushed ih =>
    cases pushes with
    | fin ends =>
      exact .push (ih (Nat.le_of_succ_le few)) (.fin ends) pushed
  | skip _ skips => cases skips

structure SameStage (host host' : SalHost) : Prop where
  skState : host'.sk.skState = host.sk.skState
  finSent : host'.sk.finSent = host.sk.finSent

theorem Sends.stage {sent : WirePacket → Prop} (sends : Sends sent host host') :
    SameStage host host' := by
  obtain ⟨_, _, _, _, rfl, -⟩ := sends
  exact ⟨rfl, rfl⟩

theorem servalSalAckProcess_does {acked : Bool} (early : host.sk.finSent = start.finSent)
    (run : servalSalAckProcess env host skb.hdr = .ok (acked, host')) :
    Does env (handling env skb start) 0 host host' := by
  rw [servalSalAckProcess] at run
  split at run
  · cases run
    exact .refl
  rename_i accepted
  have accepts : acceptsAck host.sk skb.hdr = true := by simpa using accepted
  have taken : Does env (handling env skb start) 0 host
        (host.withSk (ackedSk host.sk skb.hdr.ackno)) :=
    .change (.acked accepts early)
  dsimp only at run
  split at run
  · rename_i completes
    obtain ⟨last, sent, run⟩ := of_bind run
    cases run
    have migrated : Does env (handling env skb start) 0
          (host.withSk (ackedSk host.sk skb.hdr.ackno)).bump
          (host.bump.withSk (takeMigDaddr (ackedSk host.sk skb.hdr.ackno))) :=
      .change (.migrated completes.1 (by simpa using completes.2))
    exact ((taken.trans .bump).trans migrated).trans (xmitAll_does sent)
  · cases run
    exact taken

theorem servalSalAckProcess_skState {hdr : SalHeader} {acked : Bool}
    (run : servalSalAckProcess env host hdr = .ok (acked, host')) :
    host'.sk.skState = host.sk.skState := by
  rcases (servalSalAckProcess_spec run).2 with
    ⟨-, rfl⟩ | ⟨-, rfl | sends⟩
  · rfl
  · rfl
  · exact sends.stage.skState

theorem rcvFinIf_does {close : Bool} (run : rcvFinIf env host skb = .ok (close, host')) :
    Tends env skb start 0 host host' ∧ host'.sk.skState = host.sk.skState ∧
      (close = true → skb.hdr.hasFin = true) := by
  rw [rcvFinIf] at run
  split at run
  · rename_i fin
    rw [servalSalRcvFin] at run
    split at run
    · cases run
      exact ⟨.refl, rfl, fun _ => fin⟩
    rename_i valid
    obtain ⟨⟨err, middle⟩, acked, run⟩ := of_bind run
    cases run
    have taken : Tends env skb start 0 host (host.withSk (host.sk.endRcv.expect skb.hdr.verno)) :=
      .tweak (.fin fin (by simpa using valid))
    exact ⟨taken.trans (servalSalSendAck_does acked), (servalSalSendAck_sends acked).stage.skState,
      fun _ => fin⟩
  · cases run
    exact ⟨.refl, rfl, fun impossible => by cases impossible⟩

theorem receiveIf_does {wanted : Bool} (run : receiveIf env host wanted = .ok host') :
    Tends env skb start 1 host host' := by
  rw [receiveIf] at run
  split at run
  · have replied : Tends env skb start 1 host.bump host' :=
      runReply_does (fun fin sk => .fin ⟨host.tick, .inl fin⟩) run
    exact Does.bump.trans replied
  · cases run
    exact .nothing

theorem reackIf_sends {fin : Bool} (run : reackIf env host fin = .ok host') :
    Sends (OwnPacket env host) host host' := by
  rw [reackIf] at run
  split at run
  · obtain ⟨⟨err, middle⟩, acked, run⟩ := of_bind run
    cases run
    exact (servalSalSendAck_sends acked).mono fun _ sent => ⟨_, .ack, sent⟩
  · cases run
    exact .refl

theorem reackIf_does {means : Means} {fin : Bool} (run : reackIf env host fin = .ok host') :
    Does env means 0 host host' := by
  rw [reackIf] at run
  split at run
  · obtain ⟨⟨err, middle⟩, acked, run⟩ := of_bind run
    cases run
    exact servalSalSendAck_does acked
  · cases run
    exact .refl

theorem reackIf_acceptsAck {fin : Bool} (run : reackIf env host fin = .ok host') :
    acceptsAck host'.sk skb.hdr = acceptsAck host.sk skb.hdr := by
  obtain ⟨_, _, _, _, rfl, -⟩ := reackIf_sends run
  rfl

theorem servalSalRcvRsynack_does (rsyn : skb.hdr.hasRsyn = true)
    (run : servalSalRcvRsynack env host skb = .ok host') :
    Does env (receiving env skb start).still 0 host host' ∧ SameStage host host' := by
  rw [servalSalRcvRsynack] at run
  split at run
  · cases run
    exact ⟨.refl, rfl, rfl⟩
  rename_i dev device
  split at run
  · obtain ⟨middle, sent, run⟩ := of_bind run
    obtain ⟨⟨err, last⟩, acked, run⟩ := of_bind run
    cases run
    have taken : Does env (receiving env skb start).still 0 host.bump
          (host.bump.withSk (takeMigDev host.sk (env.devAddr dev))) :=
      .tweak (.rsynSent _ rsyn)
    have expected : Does env (receiving env skb start).still 0 middle
          (middle.withSk (middle.sk.expect skb.hdr.verno)) :=
      .tweak (.expected rsyn)
    refine ⟨(((Does.bump.trans taken).trans (xmitAll_does sent)).trans
      expected).trans (servalSalSendAck_does acked), ?_⟩
    obtain ⟨_, _, _, _, rfl, -⟩ := xmitAll_sends sent
    obtain ⟨_, _, _, _, rfl, -⟩ := servalSalSendAck_sends acked
    exact ⟨rfl, rfl⟩
  · obtain ⟨⟨err, last⟩, acked, run⟩ := of_bind run
    cases run
    have noted : Does env (receiving env skb start).still 0 host
          (host.withSk (noteMigDaddr host.sk skb.saddr)) :=
      .tweak (.rsynNoted rsyn)
    have expected : Does env (receiving env skb start).still 0
          (host.withSk (noteMigDaddr host.sk skb.saddr))
          (host.withSk ((noteMigDaddr host.sk skb.saddr).expect skb.hdr.verno)) :=
      .tweak (.expected rsyn)
    refine ⟨(noted.trans expected).trans (servalSalSendAck_does acked), ?_⟩
    obtain ⟨state, ended⟩ := (servalSalSendAck_sends acked).stage
    exact ⟨state, ended⟩
  · cases run
    exact ⟨.refl, rfl, rfl⟩

theorem servalSalQueueAndPush_stage {packet : CtrlSkb} {err : Int}
    (run : servalSalQueueAndPush env host packet = .ok (err, host')) :
    SameStage host host' := by
  obtain ⟨_, _, _, _, _, _, _, _, _, rfl⟩ := servalSalQueueAndPush_frame run
  exact ⟨rfl, rfl⟩

theorem servalSalRcvRsyn_does (rsyn : skb.hdr.hasRsyn = true)
    (run : servalSalRcvRsyn env host skb = .ok host') :
    Does env (receiving env skb start).still 1 host host' ∧ SameStage host host' := by
  rw [servalSalRcvRsyn] at run
  split at run
  · cases run
    exact ⟨.nothing, rfl, rfl⟩
  rename_i accepted
  have valid : hasValidControlExtension host.sk skb.hdr = true := by simpa using accepted
  split at run
  · cases run
    exact ⟨.nothing, rfl, rfl⟩
  have taken : Does env (receiving env skb start).still 0 host.bump (host.bump.withSk
          ((migratingSk host.sk skb.saddr).expect skb.hdr.verno)) :=
    .tweak (.rsyn rsyn valid)
  split at run
  · cases run
    exact ⟨(Does.bump.trans taken).mono (Nat.zero_le 1), rfl, rfl⟩
  obtain ⟨⟨err, last⟩, pushed, run⟩ := of_bind run
  cases run
  refine ⟨(Does.bump.trans taken).trans (.push (.rsynack rsyn) pushed), ?_⟩
  obtain ⟨state, ended⟩ := servalSalQueueAndPush_stage pushed
  exact ⟨state, ended⟩

/-- A migration leaves the sending side alone, but for the packet that answers
a request. -/
theorem rcvMigration_still (run : rcvMigration env host skb = .ok host') :
    Does env (receiving env skb start).still
        (if skb.hdr.hasAck then 0 else 1) host host' ∧ SameStage host host' := by
  rw [rcvMigration] at run
  split at run
  · rename_i rsyn
    split at run
    · rename_i ack
      rw [if_pos ack]
      exact servalSalRcvRsynack_does rsyn run
    · rename_i noAck
      rw [if_neg noAck]
      exact servalSalRcvRsyn_does rsyn run
  · cases run
    exact ⟨.nothing, rfl, rfl⟩

theorem rcvMigration_does (run : rcvMigration env host skb = .ok host') :
    Does env (receiving env skb start) 1 host host' ∧ SameStage host host' := by
  obtain ⟨does, same⟩ := @rcvMigration_still _ _ start _ _ run
  refine ⟨does.of_still.mono ?_, same⟩
  split
  · exact Nat.zero_le 1
  · exact Nat.le_refl 1

/-- A packet is handled: the acknowledgement is looked at, if at all, before
anything but packets without a new number was sent. -/
inductive AcksFirst (env : SalEnv) (skb : RcvSkb) (start : ServalSock) (host host' : SalHost) : Prop
  | noAck {fin : Bool} {first : SalHost} (reacked : reackIf env host fin = .ok first)
      (does : Tends env skb start 1 first host') :
      AcksFirst env skb start host host'
  | ack {fin acked : Bool} {first second : SalHost} (reacked : reackIf env host fin = .ok first)
      (processed : servalSalAckProcess env first skb.hdr = .ok (acked, second))
      (does : Tends env skb start 1 second host') :
      AcksFirst env skb start host host'

namespace AcksFirst

theorem of_does (does : Tends env skb start 1 host host') :
    AcksFirst env skb start host host' :=
  @noAck _ _ _ _ _ false _ rfl does

theorem refl : AcksFirst env skb start host host := of_does .nothing

theorem handles (early : host.sk.finSent = start.finSent)
    (handled : AcksFirst env skb start host host') :
    Does env (handling env skb start) 1 host host' := by
  cases handled with
  | noAck reacked does => exact (reackIf_does reacked).trans does.of_still
  | ack reacked processed does =>
    have early := (reackIf_sends reacked).stage.finSent.trans early
    exact ((reackIf_does reacked).trans (servalSalAckProcess_does early processed)).trans
      does.of_still

theorem of_ack {acked : Bool} {second : SalHost}
    (processed : servalSalAckProcess env host skb.hdr = .ok (acked, second))
    (does : Tends env skb start 1 second host') :
    AcksFirst env skb start host host' :=
  @ack _ _ _ _ _ false _ _ _ rfl processed does

end AcksFirst

theorem servalSalConnectedStateProcess_acksFirst (connected : start.skState = .connected)
    (run : servalSalConnectedStateProcess env host skb = .ok host') :
    AcksFirst env skb start host host' := by
  obtain ⟨⟨acked, first⟩, processed, run⟩ := of_bind run
  obtain ⟨⟨close, second⟩, finned, run⟩ := of_bind run
  obtain ⟨third, received, run⟩ := of_bind run
  cases run
  obtain ⟨doesFin, -, fin⟩ := @rcvFinIf_does _ _ start _ _ _ finned
  have before : Tends env skb start 1 first third := doesFin.trans (receiveIf_does received)
  refine .of_ack processed ?_
  split
  · rename_i closes
    exact before.trans (.tweak (.closewait connected (fin closes)))
  · exact before

theorem servalSalClosewaitStateProcess_acksFirst
    (run : servalSalClosewaitStateProcess env host skb = .ok host') :
    AcksFirst env skb start host host' := by
  obtain ⟨first, reacked, run⟩ := of_bind run
  obtain ⟨⟨acked, second⟩, processed, run⟩ := of_bind run
  exact .ack reacked processed (receiveIf_does run)

theorem servalSalFinwait1StateProcess_acksFirst (state : host.sk.skState = .finwait1)
    (run : servalSalFinwait1StateProcess env host skb = .ok host') :
    AcksFirst env skb start host host' := by
  obtain ⟨⟨acked, first⟩, processed, run⟩ := of_bind run
  obtain ⟨⟨close, second⟩, finned, run⟩ := of_bind run
  obtain ⟨doesFin, sameFin, -⟩ := @rcvFinIf_does _ _ start _ _ _ finned
  have here : second.sk.skState = .finwait1 := by
    rw [sameFin, servalSalAckProcess_skState processed, state]
  have moves {next : SalState} (allowed : Moves .finwait1 next) (timer : Bool) :
      Tends env skb start 0 second
        (second.withSk { second.sk with skState := next, twTimer := timer }) :=
    .tweak (.moves (by rw [here]; exact allowed) timer)
  have moved : Tends env skb start 0 second (if skb.hdr.hasFin then
          if close then
            if acked then servalSalTimewait second .timewait
            else second.setState .closing
          else second
        else if acked then servalSalTimewait second .finwait2
        else second) := by
    split_ifs
    · exact moves .bothEnd true
    · exact moves .closing second.sk.twTimer
    · exact .refl
    · exact moves .finwait2 true
    · exact .refl
  exact .of_ack processed ((doesFin.trans moved).trans (receiveIf_does run))

theorem servalSalFinwait2StateProcess_acksFirst (state : host.sk.skState = .finwait2)
    (run : servalSalFinwait2StateProcess env host skb = .ok host') :
    AcksFirst env skb start host host' := by
  obtain ⟨⟨close, second⟩, finned, run⟩ := of_bind run
  obtain ⟨doesFin, sameFin, -⟩ := @rcvFinIf_does _ _ start _ _ _ finned
  have here : second.sk.skState = .finwait2 := by rw [sameFin, state]
  have moved : Tends env skb start 0 second
        (if close then servalSalTimewait second .timewait else second) := by
    split
    · exact .tweak (.moves (by rw [here]; exact .peerEnds) true)
    · exact .refl
  exact .of_does ((doesFin.trans moved).trans (receiveIf_does run))

theorem servalSalClosingStateProcess_acksFirst (state : host.sk.skState = .closing)
    (run : servalSalClosingStateProcess env host skb = .ok host') :
    AcksFirst env skb start host host' := by
  obtain ⟨⟨acked, first⟩, processed, run⟩ := of_bind run
  obtain ⟨second, reacked, run⟩ := of_bind run
  have here : first.sk.skState = .closing := by rw [servalSalAckProcess_skState processed, state]
  have moved : Tends env skb start 0 first
        (if acked then servalSalTimewait first .timewait else first) := by
    split
    · exact .tweak (.moves (by rw [here]; exact .acked) true)
    · exact .refl
  exact .of_ack processed ((moved.trans (reackIf_does reacked)).trans
      (receiveIf_does run))

theorem servalSalLastackStateProcess_acksFirst
    (run : servalSalLastackStateProcess env host skb = .ok host') :
    AcksFirst env skb start host host' := by
  obtain ⟨first, reacked, run⟩ := of_bind run
  obtain ⟨⟨acked, second⟩, processed, run⟩ := of_bind run
  obtain ⟨third, received, run⟩ := of_bind run
  have before : Tends env skb start 1 second third := receiveIf_does received
  refine .ack reacked processed ?_
  split at run
  · exact before.trans (.done run)
  · cases run
    exact before

/-- The transport protocol leaves alone what the socket knows of its
peer. -/
theorem SavedFrom.runReply {reply : Reply} (saved : SavedFrom skb host.sk)
    (run : runReply env host reply = .ok host') :
    SavedFrom skb host'.sk := by
  refine @runReply_keeps _ (fun host => SavedFrom skb host.sk) _ _ _ ?_ ?_ ?_ saved run
  · rintro host host' saved ⟨_, _, _, _, rfl, -⟩
    exact ⟨saved.peerFlowid, saved.peerNonce, saved.rcvNxt⟩
  · intro _ host host' err saved run
    obtain ⟨_, _, _, _, _, _, _, _, _, rfl⟩ := servalSalQueueAndPush_frame run
    exact ⟨saved.peerFlowid, saved.peerNonce, saved.rcvNxt⟩
  · intro _ host host' saved run
    rw [servalSalRcvReset] at run
    split at run
    · cases run
      exact saved
    obtain ⟨_, _, _, _, _, rfl, -⟩ := servalSalDone_spec run
    exact ⟨saved.peerFlowid, saved.peerNonce, saved.rcvNxt⟩

theorem sendConnAck_does (run : sendConnAck env host = .ok host') :
    Tends env skb start 0 host host' := by
  rw [sendConnAck] at run
  split at run
  · cases run
    exact .bump
  dsimp only at run
  split at run
  · cases run
    exact .bump
  · obtain ⟨⟨err, last⟩, sent, run⟩ := of_bind run
    cases run
    exact Does.bump.trans (.send (.connAck _) sent)

/-- The transport protocol is told of the new state of the handshake. -/
theorem Tends.reply {sk : ServalSock} {reply : Reply} (saved : Tends env skb start 0 host.bump
      (host.bump.withSk sk)) (may : reply.fin = true → env.transport.EndsOnPacket)
    (replied : runReply env (host.bump.withSk sk) reply = .ok host') :
    Tends env skb start 1 host host' :=
  (Does.bump.trans saved).trans (runReply_does (fun fin _ => .fin (may fin)) replied)

theorem servalSalRequestStateProcess_acksFirst (request : start.skState = .request)
    (run : servalSalRequestStateProcess env host skb = .ok host') :
    AcksFirst env skb start host host' := by
  rw [servalSalRequestStateProcess] at run
  split at run
  · cases run
    exact .refl
  split at run
  · cases run
    exact .refl
  rename_i valid flags
  have synack : (skb.hdr.hasSyn && skb.hdr.hasAck) = true := by simpa using flags
  obtain ⟨⟨acked, first⟩, processed, run⟩ := of_bind run
  refine .of_ack processed ?_
  dsimp only at run
  split at run
  · cases run
    exact .nothing
  obtain ⟨second, replied, run⟩ := of_bind run
  have before : Tends env skb start 1 first second :=
    .reply (.tweak (.responded request synack)) (fun fin => ⟨first.tick, .inr (.inl fin)⟩) replied
  split at run
  · cases run
    exact before
  have knows : SavedFrom skb (saveResponse first.sk skb) := by
    refine ⟨rfl, ?_, rfl⟩
    cases control : skb.hdr.ctrlExt with
    | none => simp [SalHeader.hasSyn, control] at synack
    | some ext => simp [saveResponse, control]
  have after : SavedFrom skb second.sk :=
    @SavedFrom.runReply _ _ (first.bump.withSk _) _ _ knows replied
  exact (before.trans (.tweak (.connected request synack after))).trans (sendConnAck_does run)

theorem servalSalRespondStateProcess_acksFirst (respond : start.skState = .respond)
    (run : servalSalRespondStateProcess env host skb = .ok host') :
    AcksFirst env skb start host host' := by
  rw [servalSalRespondStateProcess] at run
  split at run
  · cases run
    exact .refl
  obtain ⟨⟨acked, first⟩, processed, run⟩ := of_bind run
  refine .of_ack processed ?_
  dsimp only at run
  split at run
  · cases run
    exact .nothing
  obtain ⟨second, replied, run⟩ := of_bind run
  have before : Tends env skb start 1 first second :=
    .reply (.tweak (.saved respond)) (fun fin => ⟨first.tick, .inr (.inr fin)⟩) replied
  split at run
  · cases run
    exact before
  · cases run
    exact before.trans (.tweak (.established respond))

variable {listen : SalHost → RcvSkb → Except Fault SalHost}

/-- The handler of the state; `start` is the socket in front of the
migration. -/
theorem stateSwitch_acksFirst (notListen : start.skState ≠ .listen)
    (same : host.sk.skState = start.skState)
    (run : stateSwitch listen env host skb = .ok host') :
    AcksFirst env skb start host host' := by
  rw [stateSwitch] at run
  split at run
  · split at run
    · rw [servalSalInitStateProcess] at run
      split at run
      · exact .of_does (receiveIf_does run)
      · cases run
        exact .refl
    · cases run
      exact .refl
  · rename_i state
    exact servalSalConnectedStateProcess_acksFirst (same.symm.trans state) run
  · rename_i state
    exact servalSalRequestStateProcess_acksFirst (same.symm.trans state) run
  · rename_i state
    exact servalSalRespondStateProcess_acksFirst (same.symm.trans state) run
  · rename_i state
    exact absurd (same.symm.trans state) notListen
  · rename_i state
    exact servalSalFinwait1StateProcess_acksFirst state run
  · rename_i state
    exact servalSalFinwait2StateProcess_acksFirst state run
  · rename_i state
    exact servalSalClosingStateProcess_acksFirst state run
  · exact servalSalLastackStateProcess_acksFirst run
  · exact .noAck run .nothing
  · exact servalSalClosewaitStateProcess_acksFirst run
  · exact .of_does ((Does.answers (servalSalSendReset_sends run)).mono (Nat.zero_le 1))

theorem stateSwitch_does (notListen : start.skState ≠ .listen)
    (same : host.sk.skState = start.skState)
    (early : host.sk.finSent = start.finSent)
    (run : stateSwitch listen env host skb = .ok host') :
    Does env (handling env skb start) 1 host host' :=
  (stateSwitch_acksFirst notListen same run).handles early

/-- Every packet for a socket that does not listen is handled by acts, with
two new numbers at most. -/
theorem stateProcess_does (notListen : host.sk.skState ≠ .listen)
    (run : stateProcess listen env host skb = .ok host') :
    Does env (receiving env skb host.sk) 2 host host' := by
  rw [stateProcess] at run
  split at run
  · cases run
    exact .nothing
  split at run
  · exact (servalSalRcvReset_does run).mono (Nat.zero_le 2)
  obtain ⟨middle, migrated, run⟩ := of_bind run
  obtain ⟨first, same⟩ := @rcvMigration_does _ _ host.sk _ _ migrated
  exact first.trans (stateSwitch_does notListen same.skState same.finSent run).received

end

end Serval
