import Mathlib.Tactic.MkIffOfInductiveProp
import Serval.Sal.Backlog

/-!
# Migrations

A flow moves to another device with a handshake of its own: RSYN, RSYN-ACK and
ACK. Both peers may move at the same time, and then each of them answers the
RSYN of the other while it waits for an answer to its own.
-/

namespace Serval

open Serval.Support

/-- A socket in a migration. `requested` is the device of the last request of
the user, and `accepted` the source of the last RSYN that was accepted, since
the socket was in `SAL_RSYN_INITIAL`. -/
structure Migrating where
  host : SalHost
  requested : Option Nat
  accepted : Option NetAddr

inductive MigEvent
  | migrate (dev : Nat)
  | receive (skb : RcvSkb)

/-- The tests in front of `serval_sal_rcv_rsyn` and in it. -/
def acceptsRsyn (host : SalHost) (skb : RcvSkb) : Bool :=
  skb.hdr.hasRsyn && !skb.hdr.hasAck && !skb.hdr.hasRst && hasValidVerno skb.hdr.verno host.sk &&
    hasValidControlExtension host.sk skb.hdr &&
    !(host.sk.skState = .closed || host.sk.skState = .listen || host.sk.skState = .request)

/-- What is remembered is forgotten in `SAL_RSYN_INITIAL`. -/
def Migrating.remembered {α : Type} (s : Migrating) (known : Option α) :
    Option α :=
  if s.host.sk.salState = .initial then none else known

/-- `serval_sock_migrate_flow`, and the packets of the peer. -/
def migStep (env : SalEnv) (s : Migrating) : MigEvent → Except Fault Migrating
  | .migrate dev => do
    let (_, host) ← servalSalMigrate env (s.host.withSk { s.host.sk with migDevIf := dev })
    .ok ⟨host, some dev, s.remembered s.accepted⟩
  | .receive skb => do
    let host ← servalSalStateProcess env s.host skb
    .ok
      { host
        requested := s.remembered s.requested
        accepted :=
          if acceptsRsyn s.host skb then some skb.saddr
          else s.remembered s.accepted }

@[mk_iff]
structure MigPacket (host : SalHost) (skb : RcvSkb) : Prop where
  flags : skb.hdr.hasRsyn = true ∨ skb.hdr.hasAck = true
  noSyn : skb.hdr.hasSyn = false
  noFin : skb.hdr.hasFin = false
  noRst : skb.hdr.hasRst = false
  verno : hasValidVerno skb.hdr.verno host.sk = true
  valid : hasValidControlExtension host.sk skb.hdr = true

/-- A request names a device and leads to an RSYN; packets are those of a
migration. -/
def migEvent (env : SalEnv) (s : Migrating) : MigEvent → Prop
  | .migrate dev =>
    (env.devByIndex dev).isSome = true ∧ s.host.sk.skState ≠ .request ∧ s.host.sk.skState ≠ .closed
  | .receive skb => MigPacket s.host skb

/-- The socket uses the requested device and the accepted address. -/
structure MigratedTo (s : Migrating) : Prop where
  device : ∀ dev, s.requested = some dev → s.host.sk.boundDevIf = dev ∧ s.host.sk.migDevIf = 0
  address : ∀ addr, s.accepted = some addr → s.host.sk.inetDaddr = addr

/-- What the packets must meet: no RSYN-ACK comes once an RSYN was accepted,
the handshake of the flow itself is over, and an ACK that completes the
migration of the peer carries no data and makes the transport protocol send
nothing. -/
def migFits (env : SalEnv) (s : Migrating) : MigEvent → Prop
  | .migrate _ => True
  | .receive skb =>
    s.host.sk.skState ≠ .respond ∧
      (skb.hdr.hasRsyn = true → skb.hdr.hasAck = true → s.accepted = none) ∧
      (skb.hdr.hasRsyn = false → s.host.sk.salState = .recv →
        skb.hasTransportHdr = false ∧ env.transport.migrationCompleted s.host.tick = [])

/-! ## What a handler does to a migration -/

structure HandlesMig (rsyn : Bool) (sk sk' : ServalSock) : Prop where
  migDevIf : sk'.migDevIf = sk.migDevIf
  boundDevIf : sk'.boundDevIf = sk.boundDevIf
  salState :
    sk'.salState = sk.salState ∧ sk'.migDaddr = sk.migDaddr ∨
      rsyn = false ∧
        (sk.salState = .recv ∧ sk'.salState = .initial ∨
          sk.salState = .sentRecv ∧ sk'.salState = .sent)

namespace HandlesMig

variable {rsyn : Bool} {sk sk' sk'' : ServalSock} {host host' : SalHost}

theorem refl : HandlesMig rsyn sk sk := ⟨rfl, rfl, .inl ⟨rfl, rfl⟩⟩

theorem trans (first : HandlesMig rsyn sk sk') (second : HandlesMig rsyn sk' sk'') :
    HandlesMig rsyn sk sk'' where
  migDevIf := second.migDevIf.trans first.migDevIf
  boundDevIf := second.boundDevIf.trans first.boundDevIf
  salState := by
    rcases first.salState with ⟨same, daddr⟩ | ⟨noRsyn, done⟩
    · rw [← same, ← daddr]
      exact second.salState
    -- After a completion nothing is left to complete.
    · rcases second.salState with ⟨same, -⟩ | ⟨-, again⟩
      · rw [same]
        exact .inr ⟨noRsyn, done⟩
      rcases done with ⟨-, after⟩ | ⟨-, after⟩
      · simp [after] at again
      · simp [after] at again

/-- An RSYN completes no migration. -/
theorem same (handled : HandlesMig true sk sk') :
    sk'.salState = sk.salState ∧ sk'.migDaddr = sk.migDaddr :=
  handled.salState.resolve_right nofun

theorem of_books (books : Bookkeeping sk sk') : HandlesMig rsyn sk sk' := by
  obtain ⟨_, _, _, _, _, _, _, _, _, _, _, _, -, rfl⟩ := books
  exact ⟨rfl, rfl, .inl ⟨rfl, rfl⟩⟩

variable {env : SalEnv}

theorem of_ending : HandlesMig rsyn sk sk.ending := ⟨rfl, rfl, .inl ⟨rfl, rfl⟩⟩

theorem of_handled {skb : RcvSkb} {start : ServalSock}
    (noSyn : skb.hdr.hasSyn = false) (other : start.skState ≠ .respond)
    (handled : Handled env skb start sk sk') :
    HandlesMig skb.hdr.hasRsyn sk sk' := by
  cases handled with
  | migrated pending noRsyn =>
    refine ⟨rfl, rfl, .inr ⟨noRsyn, ?_⟩⟩
    rcases pending with recv | sentRecv
    · exact .inl ⟨recv, by rw [takeMigDaddr, recv]; rfl⟩
    · exact .inr ⟨sentRecv, by rw [takeMigDaddr, sentRecv]; rfl⟩
  | responded request synack | connected request synack =>
    rw [noSyn] at synack
    cases synack
  | saved respond | established respond => exact absurd respond other
  | _ => exact ⟨rfl, rfl, .inl ⟨rfl, rfl⟩⟩

theorem of_handling {skb : RcvSkb} {start : ServalSock} {n : Nat}
    (noSyn : skb.hdr.hasSyn = false) (other : start.skState ≠ .respond)
    (does : Does env (handling env skb start) n host host') :
    HandlesMig skb.hdr.hasRsyn host.sk host'.sk := by
  obtain ⟨m, -, acts⟩ := does
  refine acts.keeps_sk (fun books kept => kept.trans (of_books books))
    (fun changed kept => kept.trans (of_handled noSyn other changed)) ?_ refl
  intro sk sk' skb pushes kept
  cases pushes with
  | fin ends => exact kept.trans of_ending

end HandlesMig

section

variable {env : SalEnv} {host host' : SalHost} {skb : RcvSkb}

/-! ## Migrations in front of the switch -/

theorem servalSalRcvRsynack_sent (sent : host.sk.salState = .sent)
    (run : servalSalRcvRsynack env host skb = .ok host') :
    host'.sk.salState = .sent ∧ host'.sk.migDevIf = host.sk.migDevIf ∨
      host'.sk.salState = .initial ∧
        host'.sk.boundDevIf = host.sk.migDevIf ∧ host'.sk.migDevIf = 0 := by
  rw [servalSalRcvRsynack] at run
  split at run
  · cases run
    exact .inl ⟨sent, rfl⟩
  simp only [sent] at run
  obtain ⟨middle, completed, run⟩ := of_bind run
  obtain ⟨⟨err, last⟩, acked, run⟩ := of_bind run
  cases run
  obtain ⟨_, _, _, _, rfl, -⟩ := xmitAll_sends completed
  obtain ⟨_, _, _, _, rfl, -⟩ := servalSalSendAck_sends acked
  exact .inr ⟨rfl, rfl, rfl⟩

theorem servalSalRcvRsynack_other (notSent : host.sk.salState ≠ .sent)
    (notCrossed : host.sk.salState ≠ .sentRecv)
    (run : servalSalRcvRsynack env host skb = .ok host') : host' = host := by
  rw [servalSalRcvRsynack] at run
  split at run
  · cases run
    rfl
  split at run
  · rename_i sent
    exact absurd sent notSent
  · rename_i crossed
    exact absurd crossed notCrossed
  · cases run
    rfl

theorem servalSalRcvRsyn_spec
    (accepts :
      acceptsRsyn host skb = true ↔
        hasValidControlExtension host.sk skb.hdr = true ∧
          ¬ (host.sk.skState = .closed ∨ host.sk.skState = .listen ∨ host.sk.skState = .request))
    (run : servalSalRcvRsyn env host skb = .ok host') :
    acceptsRsyn host skb = false ∧ host' = host ∨
      acceptsRsyn host skb = true ∧ host'.sk.salState = host.sk.salState.afterRcv ∧
        host'.sk.migDaddr = skb.saddr ∧ host'.sk.migDevIf = host.sk.migDevIf := by
  rw [servalSalRcvRsyn] at run
  split at run
  · rename_i invalid
    cases run
    refine .inl ⟨?_, rfl⟩
    rw [Bool.eq_false_iff, Ne, accepts]
    intro accepted
    rw [accepted.1] at invalid
    cases invalid
  rename_i valid
  split at run
  · rename_i refuses
    cases run
    refine .inl ⟨?_, rfl⟩
    rw [Bool.eq_false_iff, Ne, accepts]
    exact fun accepted => accepted.2 refuses
  rename_i takes
  have accepted : acceptsRsyn host skb = true := accepts.mpr ⟨by simpa using valid, takes⟩
  split at run
  · cases run
    exact .inr ⟨accepted, rfl, rfl, rfl⟩
  · obtain ⟨⟨err, last⟩, pushed, run⟩ := of_bind run
    cases run
    obtain ⟨_, _, _, _, _, _, _, _, _, rfl⟩ := servalSalQueueAndPush_frame pushed
    exact .inr ⟨accepted, rfl, rfl, rfl⟩

/-! ## The acknowledgement that completes the migration of the peer -/

/-- Either no migration was completed, or the new address of the peer is in
use. -/
def TakesAddr (sk sk' : ServalSock) : Prop :=
  sk'.salState = sk.salState ∨ sk'.inetDaddr = sk.migDaddr

theorem servalSalAckProcess_takesAddr {hdr : SalHeader} {acked : Bool}
    (quiet : env.transport.migrationCompleted host.tick = [])
    (run : servalSalAckProcess env host hdr = .ok (acked, host')) :
    TakesAddr host.sk host'.sk := by
  rw [servalSalAckProcess] at run
  split at run
  · cases run
    exact .inl rfl
  dsimp only at run
  split at run
  · rw [quiet] at run
    cases run
    exact .inr rfl
  · cases run
    exact .inl rfl

/-- A pure acknowledgement leads to nothing that would be sent afterwards. -/
structure PureAck (skb : RcvSkb) : Prop where
  noSyn : skb.hdr.hasSyn = false
  noFin : skb.hdr.hasFin = false
  noData : skb.hasTransportHdr = false

theorem PureAck.rcvFinIf (pure : PureAck skb) : rcvFinIf env host skb = .ok (false, host) := by
  rw [Serval.rcvFinIf, pure.noFin]
  rfl

theorem PureAck.reackIf (pure : PureAck skb) : reackIf env host skb.hdr.hasFin = .ok host := by
  rw [pure.noFin]
  rfl

theorem PureAck.receiveIf (pure : PureAck skb) :
    receiveIf env host skb.hasTransportHdr = .ok host := by
  rw [pure.noData]
  rfl

theorem PureAck.receiveOrFinIf (pure : PureAck skb) :
    Serval.receiveIf env host (skb.hasTransportHdr || skb.hdr.hasFin) = .ok host := by
  rw [pure.noData, pure.noFin]
  rfl

variable (pure : PureAck skb)

include pure

theorem servalSalFinwait2StateProcess_pureAck
    (run : servalSalFinwait2StateProcess env host skb = .ok host') : host' = host := by
  rw [servalSalFinwait2StateProcess, pure.rcvFinIf] at run
  simp only [ok_bind, Bool.false_eq_true, if_false, pure.receiveOrFinIf] at run
  cases run
  rfl

theorem servalSalInitStateProcess_pureAck
    (run : servalSalInitStateProcess env host skb = .ok host') : host' = host := by
  rw [servalSalInitStateProcess, pure.receiveIf] at run
  split at run
  · cases run
    rfl
  · cases run
    rfl

theorem servalSalRequestStateProcess_pureAck
    (run : servalSalRequestStateProcess env host skb = .ok host') : host' = host := by
  rw [servalSalRequestStateProcess, pure.noSyn] at run
  split at run
  · cases run
    rfl
  · cases run
    rfl

variable (quiet : env.transport.migrationCompleted host.tick = [])

include quiet

theorem servalSalConnectedStateProcess_takesAddr
    (run : servalSalConnectedStateProcess env host skb = .ok host') :
    TakesAddr host.sk host'.sk := by
  obtain ⟨⟨acked, first⟩, processed, run⟩ := of_bind run
  simp only [pure.rcvFinIf, pure.receiveOrFinIf, ok_bind] at run
  cases run
  exact servalSalAckProcess_takesAddr quiet processed

theorem servalSalClosewaitStateProcess_takesAddr
    (run : servalSalClosewaitStateProcess env host skb = .ok host') :
    TakesAddr host.sk host'.sk := by
  rw [servalSalClosewaitStateProcess, pure.reackIf, ok_bind] at run
  obtain ⟨⟨acked, first⟩, processed, run⟩ := of_bind run
  simp only [pure.receiveIf] at run
  cases run
  exact servalSalAckProcess_takesAddr quiet processed

theorem servalSalFinwait1StateProcess_takesAddr
    (run : servalSalFinwait1StateProcess env host skb = .ok host') :
    TakesAddr host.sk host'.sk := by
  obtain ⟨⟨acked, first⟩, processed, run⟩ := of_bind run
  simp only [pure.rcvFinIf, pure.receiveOrFinIf, ok_bind] at run
  have taken := servalSalAckProcess_takesAddr quiet processed
  rw [pure.noFin, if_neg Bool.false_ne_true] at run
  split at run
  · cases run
    exact taken
  · cases run
    exact taken

theorem servalSalClosingStateProcess_takesAddr
    (run : servalSalClosingStateProcess env host skb = .ok host') :
    TakesAddr host.sk host'.sk := by
  obtain ⟨⟨acked, first⟩, processed, run⟩ := of_bind run
  simp only [pure.reackIf, pure.receiveIf, ok_bind] at run
  have taken := servalSalAckProcess_takesAddr quiet processed
  split at run
  · cases run
    exact taken
  · cases run
    exact taken

theorem servalSalLastackStateProcess_takesAddr
    (run : servalSalLastackStateProcess env host skb = .ok host') :
    TakesAddr host.sk host'.sk := by
  rw [servalSalLastackStateProcess, pure.reackIf, ok_bind] at run
  obtain ⟨⟨acked, first⟩, processed, run⟩ := of_bind run
  simp only [pure.receiveIf, ok_bind] at run
  have taken := servalSalAckProcess_takesAddr quiet processed
  split at run
  · obtain ⟨_, _, _, _, _, rfl, -⟩ := servalSalDone_spec run
    exact taken
  · cases run
    exact taken

theorem stateSwitch_takesAddr {listen : SalHost → RcvSkb → Except Fault SalHost}
    (notListen : host.sk.skState ≠ .listen)
    (notRespond : host.sk.skState ≠ .respond)
    (run : stateSwitch listen env host skb = .ok host') :
    TakesAddr host.sk host'.sk := by
  rw [stateSwitch] at run
  split at run
  · split at run
    · rw [servalSalInitStateProcess_pureAck pure run]
      exact .inl rfl
    · cases run
      exact .inl rfl
  · exact servalSalConnectedStateProcess_takesAddr pure quiet run
  · rw [servalSalRequestStateProcess_pureAck pure run]
    exact .inl rfl
  · rename_i respond
    exact absurd respond notRespond
  · rename_i listening
    exact absurd listening notListen
  · exact servalSalFinwait1StateProcess_takesAddr pure quiet run
  · rw [servalSalFinwait2StateProcess_pureAck pure run]
    exact .inl rfl
  · exact servalSalClosingStateProcess_takesAddr pure quiet run
  · exact servalSalLastackStateProcess_takesAddr pure quiet run
  · rw [pure.reackIf] at run
    cases run
    exact .inl rfl
  · exact servalSalClosewaitStateProcess_takesAddr pure quiet run
  · obtain ⟨_, _, _, _, rfl, -⟩ := servalSalSendReset_sends run
    exact .inl rfl

end

section

variable {env : SalEnv} {s s' : Migrating} {skb : RcvSkb}

structure MigKnown (s : Migrating) : Prop where
  notListen : s.host.sk.skState ≠ .listen
  requests :
    s.host.sk.salState = .sent ∨ s.host.sk.salState = .sentRecv →
      s.requested = some s.host.sk.migDevIf
  waits : s.host.sk.salState = .recv → s.requested = none
  accepts :
    s.host.sk.salState = .recv ∨ s.host.sk.salState = .sentRecv →
      s.accepted = some s.host.sk.migDaddr

/-- What holds when a migration has ended. -/
def Returns (s s' : Migrating) : Prop :=
  s.host.sk.salState ≠ .initial → s'.host.sk.salState = .initial → MigratedTo s'

theorem Returns.away (away : s'.host.sk.salState ≠ .initial) :
    Returns s s' :=
  fun _ back => absurd back away

namespace MigKnown

variable (notListen : s.host.sk.skState ≠ .listen)

include notListen

theorem initial (state : s.host.sk.salState = .initial) : MigKnown s :=
  ⟨notListen, by simp [state], by simp [state], by simp [state]⟩

theorem sent (state : s.host.sk.salState = .sent)
    (requested : s.requested = some s.host.sk.migDevIf) : MigKnown s :=
  ⟨notListen, fun _ => requested, by simp [state], by simp [state]⟩

theorem recv (state : s.host.sk.salState = .recv) (requested : s.requested = none)
    (accepted : s.accepted = some s.host.sk.migDaddr) : MigKnown s :=
  ⟨notListen, by simp [state], fun _ => requested, fun _ => accepted⟩

theorem sentRecv (state : s.host.sk.salState = .sentRecv)
    (requested : s.requested = some s.host.sk.migDevIf)
    (accepted : s.accepted = some s.host.sk.migDaddr) : MigKnown s :=
  ⟨notListen, fun _ => requested, by simp [state], fun _ => accepted⟩

end MigKnown

theorem RsynState.afterSend_cases (state : RsynState) :
    state.afterSend = .sent ∧ (state = .initial ∨ state = .sent) ∨
      state.afterSend = .sentRecv ∧ (state = .recv ∨ state = .sentRecv) := by
  cases state <;> decide

theorem RsynState.afterRcv_cases (state : RsynState) :
    state.afterRcv = .recv ∧ (state = .initial ∨ state = .recv) ∨
      state.afterRcv = .sentRecv ∧ (state = .sent ∨ state = .sentRecv) := by
  cases state <;> decide

theorem Migrating.remembered_away
    {α : Type} {known : Option α} (away : s.host.sk.salState ≠ .initial) :
    s.remembered known = known :=
  if_neg away

namespace MigKnown

variable (known : MigKnown s)

include known

theorem requested (ours : s.host.sk.salState = .sent ∨ s.host.sk.salState = .sentRecv) :
    s.remembered s.requested = some s.host.sk.migDevIf := by
  rw [s.remembered_away (by rcases ours with sent | sentRecv <;> simp [*])]
  exact known.requests ours

theorem unrequested (theirs : s.host.sk.salState = .recv) : s.remembered s.requested = none := by
  rw [s.remembered_away (by simp [theirs])]
  exact known.waits theirs

theorem accepted (theirs : s.host.sk.salState = .recv ∨ s.host.sk.salState = .sentRecv) :
    s.remembered s.accepted = some s.host.sk.migDaddr := by
  rw [s.remembered_away (by rcases theirs with recv | sentRecv <;> simp [*])]
  exact known.accepts theirs

end MigKnown

variable {host : SalHost}

theorem servalSalMigrate_spec {host' : SalHost} {err : Int} (notListen : host.sk.skState ≠ .listen)
    (notRequest : host.sk.skState ≠ .request)
    (notClosed : host.sk.skState ≠ .closed)
    (run : servalSalMigrate env host = .ok (err, host')) :
    host'.sk.skState = host.sk.skState ∧ host'.sk.salState = host.sk.salState.afterSend ∧
      host'.sk.migDevIf = host.sk.migDevIf ∧ host'.sk.migDaddr = host.sk.migDaddr := by
  rw [servalSalMigrate, servalSalSendRsyn] at run
  split at run
  · rename_i refuses
    rcases refuses with request | listen | closed
    · exact absurd request notRequest
    · exact absurd listen notListen
    · exact absurd closed notClosed
  · obtain ⟨_, _, _, _, _, _, _, _, _, rfl⟩ := servalSalQueueAndPush_frame run
    exact ⟨rfl, rfl, rfl, rfl⟩

theorem migStep_migrate {dev : Nat} (known : MigKnown s) (notRequest : s.host.sk.skState ≠ .request)
    (notClosed : s.host.sk.skState ≠ .closed)
    (run : migStep env s (.migrate dev) = .ok s') :
    MigKnown s' ∧ Returns s s' := by
  obtain ⟨⟨err, host⟩, migrated, run⟩ := of_bind run
  cases run
  obtain ⟨state, salState, device, address⟩ :=
    servalSalMigrate_spec (by exact known.notListen) (by exact notRequest)
      (by exact notClosed) migrated
  have notListen : host.sk.skState ≠ .listen := by
    rw [state]
    exact known.notListen
  have requested : some dev = some host.sk.migDevIf := congrArg some device.symm
  rcases s.host.sk.salState.afterSend_cases with
    ⟨sent, -⟩ | ⟨crossed, before⟩
  · have sent : host.sk.salState = .sent := salState.trans sent
    exact ⟨.sent notListen sent requested, .away (by simp [sent])⟩
  have crossed : host.sk.salState = .sentRecv := salState.trans crossed
  have accepted : s.remembered s.accepted = some host.sk.migDaddr := by
    rw [address]
    exact known.accepted before
  exact ⟨.sentRecv notListen crossed requested accepted, .away (by simp [crossed])⟩

theorem MigPacket.acceptsRsyn_iff (packet : MigPacket s.host skb) (rsyn : skb.hdr.hasRsyn = true)
    (noAck : skb.hdr.hasAck = false) :
    acceptsRsyn s.host skb = true ↔
      hasValidControlExtension s.host.sk skb.hdr = true ∧
        ¬ (s.host.sk.skState = .closed ∨ s.host.sk.skState = .listen ∨
          s.host.sk.skState = .request) := by
  rw [acceptsRsyn, rsyn, noAck, packet.noRst, packet.verno]
  simp [and_assoc]

/-- A packet of a migration passes the tests in front of the switch. -/
theorem MigPacket.process (packet : MigPacket s.host skb)
    (run : servalSalStateProcess env s.host skb = .ok host) :
    ∃ middle, rcvMigration env s.host skb = .ok middle ∧
      stateSwitch (servalSalListenStateProcess env) env middle skb = .ok host := by
  rw [servalSalStateProcess, stateProcess, packet.verno, packet.noRst, Bool.not_true,
    Bool.and_false] at run
  exact of_bind run

theorem stateSwitch_handlesMig {middle : SalHost} (notListen : s.host.sk.skState ≠ .listen)
    (notRespond : s.host.sk.skState ≠ .respond)
    (noSyn : skb.hdr.hasSyn = false)
    (migrated : rcvMigration env s.host skb = .ok middle)
    (run :
      stateSwitch (servalSalListenStateProcess env) env middle skb =
        .ok host) : HandlesMig skb.hdr.hasRsyn middle.sk host.sk := by
  obtain ⟨-, same⟩ := @rcvMigration_does _ _ s.host.sk _ _ migrated
  exact .of_handling noSyn notRespond (stateSwitch_does notListen same.skState same.finSent run)

def Migrating.waiting (s : Migrating) (host : SalHost) : Migrating :=
  ⟨host, s.remembered s.requested, s.remembered s.accepted⟩

section

variable {host middle : SalHost}

theorem MigKnown.same (known : MigKnown s) (notListen : host.sk.skState ≠ .listen)
    (salState : host.sk.salState = s.host.sk.salState)
    (migDaddr : host.sk.migDaddr = s.host.sk.migDaddr)
    (migDevIf : host.sk.migDevIf = s.host.sk.migDevIf) :
    MigKnown (s.waiting host) ∧ Returns s (s.waiting host) := by
  refine ⟨⟨notListen, ?_, ?_, ?_⟩, fun away back => absurd (salState.symm.trans back) away⟩
  · show _ → s.remembered s.requested = some host.sk.migDevIf
    rw [Migrating.waiting, salState, migDevIf]
    exact known.requested
  · show _ → s.remembered s.requested = none
    rw [Migrating.waiting, salState]
    exact known.unrequested
  · show _ → s.remembered s.accepted = some host.sk.migDaddr
    rw [Migrating.waiting, salState, migDaddr]
    exact known.accepted

/-- An RSYN-ACK ends our migration, and no RSYN was accepted before it. -/
theorem MigKnown.rsynack (known : MigKnown s) (notListen : host.sk.skState ≠ .listen)
    (alone : s.accepted = none)
    (run : servalSalRcvRsynack env s.host skb = .ok middle)
    (handled : HandlesMig true middle.sk host.sk) :
    MigKnown (s.waiting host) ∧ Returns s (s.waiting host) := by
  obtain ⟨salState, migDaddr⟩ := handled.same
  by_cases sent : s.host.sk.salState = .sent
  · have requested := known.requested (.inl sent)
    rcases servalSalRcvRsynack_sent sent run with
      ⟨unchanged, device⟩ | ⟨returned, bound, device⟩
    · have unchanged := salState.trans unchanged
      refine ⟨.sent notListen unchanged ?_, .away (by simp [Migrating.waiting, unchanged])⟩
      rw [← handled.migDevIf] at device
      exact requested.trans (congrArg some device.symm)
    refine ⟨.initial notListen (salState.trans returned), ?_⟩
    intro away _
    refine ⟨?_, ?_⟩
    · intro dev ours
      obtain rfl := Option.some.inj (requested.symm.trans ours)
      exact ⟨handled.boundDevIf.trans bound, handled.migDevIf.trans device⟩
    · intro addr theirs
      have nothing : s.remembered s.accepted = none := by rw [s.remembered_away away, alone]
      cases nothing.symm.trans theirs
  · have notCrossed : s.host.sk.salState ≠ .sentRecv := by
      intro crossed
      rw [known.accepts (.inr crossed)] at alone
      cases alone
    obtain rfl := servalSalRcvRsynack_other sent notCrossed run
    exact known.same notListen salState migDaddr handled.migDevIf

theorem MigKnown.rsyn (known : MigKnown s) (notListen : host.sk.skState ≠ .listen)
    (salState : host.sk.salState = s.host.sk.salState.afterRcv)
    (migDaddr : host.sk.migDaddr = skb.saddr)
    (migDevIf : host.sk.migDevIf = s.host.sk.migDevIf) :
    MigKnown ⟨host, s.remembered s.requested, some skb.saddr⟩ ∧
      Returns s ⟨host, s.remembered s.requested, some skb.saddr⟩ := by
  have accepted : some skb.saddr = some host.sk.migDaddr := congrArg some migDaddr.symm
  rcases s.host.sk.salState.afterRcv_cases with
    ⟨recv, before⟩ | ⟨crossed, before⟩
  · have recv : host.sk.salState = .recv := salState.trans recv
    have requested : s.remembered s.requested = none := by
      rcases before with initial | recv
      · exact if_pos initial
      · exact known.unrequested recv
    exact ⟨.recv notListen recv requested accepted, .away (by simp [recv])⟩
  · have crossed : host.sk.salState = .sentRecv := salState.trans crossed
    have requested : s.remembered s.requested = some host.sk.migDevIf := by
      rw [migDevIf]
      exact known.requested before
    exact ⟨.sentRecv notListen crossed requested accepted, .away (by simp [crossed])⟩

theorem MigKnown.ack (known : MigKnown s) (notListen : host.sk.skState ≠ .listen)
    (handled : HandlesMig false s.host.sk host.sk)
    (takes : s.host.sk.salState = .recv → TakesAddr s.host.sk host.sk) :
    MigKnown (s.waiting host) ∧ Returns s (s.waiting host) := by
  rcases handled.salState with
    ⟨same, migDaddr⟩ | ⟨-, ⟨recv, returned⟩ | ⟨crossed, sent⟩⟩
  · exact known.same notListen same migDaddr handled.migDevIf
  · refine ⟨.initial notListen returned, ?_⟩
    intro _ _
    refine ⟨?_, ?_⟩
    · intro dev ours
      cases (known.unrequested recv).symm.trans ours
    · intro addr theirs
      obtain rfl := Option.some.inj ((known.accepted (.inl recv)).symm.trans theirs)
      rcases takes recv with same | taken
      · rw [recv, returned] at same
        cases same
      · exact taken
  · have requested : s.remembered s.requested = some host.sk.migDevIf := by
      rw [handled.migDevIf]
      exact known.requested (.inr crossed)
    exact ⟨.sent notListen sent requested, .away (by simp [Migrating.waiting, sent])⟩

end

theorem migStep_receive (known : MigKnown s) (packet : MigPacket s.host skb)
    (fits : migFits env s (.receive skb))
    (run : migStep env s (.receive skb) = .ok s') :
    MigKnown s' ∧ Returns s s' := by
  obtain ⟨notRespond, alone, quiet⟩ := fits
  obtain ⟨host, processed, run⟩ := of_bind run
  cases run
  have notListen : host.sk.skState ≠ .listen := (SameBacklog.of_receiving
      (stateProcess_does known.notListen processed)).notListen
      known.notListen
  obtain ⟨middle, migrated, switched⟩ := packet.process processed
  have handled := stateSwitch_handlesMig known.notListen notRespond packet.noSyn migrated switched
  rw [rcvMigration] at migrated
  split at migrated
  · rename_i rsyn
    rw [rsyn] at handled
    split at migrated
    · rename_i ack
      have other : acceptsRsyn s.host skb = false := by
        rw [acceptsRsyn, ack]
        simp
      rw [other]
      exact known.rsynack notListen (alone rsyn ack) migrated handled
    · rename_i noAck
      obtain ⟨salState, migDaddr⟩ := handled.same
      rcases servalSalRcvRsyn_spec
          (packet.acceptsRsyn_iff rsyn (by simpa using noAck)) migrated with
        ⟨other, rfl⟩ | ⟨accepted, state, address, device⟩
      · rw [other]
        exact known.same notListen salState migDaddr handled.migDevIf
      · rw [accepted]
        exact known.rsyn notListen (salState.trans state)
          (migDaddr.trans address) (handled.migDevIf.trans device)
  · rename_i noRsyn
    have noRsyn : skb.hdr.hasRsyn = false := by simpa using noRsyn
    cases migrated
    rw [noRsyn] at handled
    have other : acceptsRsyn s.host skb = false := by
      rw [acceptsRsyn, noRsyn]
      rfl
    rw [other]
    refine known.ack notListen handled ?_
    intro recv
    obtain ⟨noData, completed⟩ := quiet noRsyn recv
    exact stateSwitch_takesAddr ⟨packet.noSyn, packet.noFin, noData⟩ completed known.notListen
      notRespond switched

structure Settled (s : Migrating) : Prop where
  notListen : s.host.sk.skState ≠ .listen
  salState : s.host.sk.salState = .initial

/-- In every run whose packets meet the condition, a migration that is over
has brought the socket to the device that was asked for, and to the address
the peer has moved to. -/
theorem migRun_returns {history : List MigEvent} {event : MigEvent} {s₁ s₂ : Migrating}
    (settled : Settled s)
    (admitted :
      Admits (migStep env)
        (fun s event => migEvent env s event ∧ migFits env s event) s history)
    (first : runAll (migStep env) s history = .ok s₁)
    (allowed : migEvent env s₁ event) (fits : migFits env s₁ event)
    (last : migStep env s₁ event = .ok s₂)
    (away : s₁.host.sk.salState ≠ .initial)
    (back : s₂.host.sk.salState = .initial) : MigratedTo s₂ := by
  have step {s s' : Migrating} {event : MigEvent} (known : MigKnown s)
      (allowed : migEvent env s event) (fits : migFits env s event)
      (run : migStep env s event = .ok s') :
      MigKnown s' ∧ Returns s s' := by
    cases event with
    | migrate dev => exact migStep_migrate known allowed.2.1 allowed.2.2 run
    | receive skb => exact migStep_receive known allowed fits run
  have known : MigKnown s₁ := runAll_invariant
      (fun _ _ _ known both run => (step known both.1 both.2 run).1)
      (.initial settled.notListen settled.salState) admitted first
  exact (step known allowed fits last).2 away back

end

def migEnv : SalEnv := { plainEnv with devByIndex := some }

def migSkb (rsyn ack : Bool) (verno ackno : UInt32) : RcvSkb :=
  { plainSkb { plainControl verno ackno (Vector.replicate 8 6) with rsyn, ack } with
    saddr := ipv4 10 0 0 3 }

def settledFlow : Migrating := ⟨plainConnection, none, none⟩

theorem settledFlow_settled : Settled settledFlow := ⟨by decide, rfl⟩

instance (host : SalHost) (skb : RcvSkb) : Decidable (MigPacket host skb) :=
  decidable_of_iff' _ (migPacket_iff host skb)

/-- Our RSYN is answered. -/
theorem migRun_returns_device : ∃ s₁ s₂, Settled settledFlow ∧
      runAll (migStep migEnv) settledFlow [.migrate 2] = .ok s₁ ∧
      migStep migEnv s₁ (.receive (migSkb true true 7 11)) = .ok s₂ ∧
      s₁.host.sk.salState ≠ .initial ∧ s₂.host.sk.salState = .initial ∧
      s₂.requested = some 2 ∧ MigratedTo s₂ := by
  obtain ⟨s₁, first, passed⟩ := @exists_of_leaves _
      (runAll (migStep migEnv) settledFlow [.migrate 2])
      (fun s => s.host.sk.skState = .connected && s.host.sk.salState = .sent && s.accepted = none &&
        decide (MigPacket s.host (migSkb true true 7 11)) &&
        leaves (migStep migEnv s (.receive (migSkb true true 7 11)))
          (fun s' => s'.host.sk.salState = .initial && s'.requested = some 2))
      (by decide +kernel)
  simp only [Bool.and_eq_true, decide_eq_true_eq] at passed
  obtain ⟨⟨⟨⟨connected, sent⟩, alone⟩, packet⟩, last⟩ := passed
  obtain ⟨s₂, last, passed⟩ := exists_of_leaves last
  simp only [Bool.and_eq_true, decide_eq_true_eq] at passed
  obtain ⟨back, requested⟩ := passed
  have admitted : Admits (migStep migEnv)
        (fun s event => migEvent migEnv s event ∧ migFits migEnv s event)
        settledFlow [.migrate 2] :=
    ⟨⟨⟨rfl, by decide, by decide⟩, trivial⟩, fun _ _ => trivial⟩
  have allowed : migEvent migEnv s₁ (.receive (migSkb true true 7 11)) := packet
  have fits : migFits migEnv s₁ (.receive (migSkb true true 7 11)) :=
    ⟨by simp [connected], fun _ _ => alone, fun noRsyn => by cases noRsyn⟩
  have away : s₁.host.sk.salState ≠ .initial := by simp [sent]
  exact ⟨s₁, s₂, settledFlow_settled, first, last, away, back, requested,
    migRun_returns settledFlow_settled admitted first allowed fits last away
      back⟩

instance (env : SalEnv) (s : Migrating) (event : MigEvent) : Decidable (migEvent env s event) :=
  match event with
  | .migrate _ => inferInstanceAs (Decidable (_ ∧ _ ∧ _))
  | .receive skb => inferInstanceAs (Decidable (MigPacket s.host skb))

def crossing : List MigEvent :=
  [.migrate 2, .receive (migSkb true false 7 10), .receive (migSkb true true 8 11)]

/-- The RSYN-ACK leaves the socket on its old device, and the ACK ends the
migration there. -/
theorem crossing_keeps_device : ∃ s₁ s₂, Settled settledFlow ∧
      Admits (migStep migEnv) (migEvent migEnv) settledFlow crossing ∧
      runAll (migStep migEnv) settledFlow crossing = .ok s₁ ∧
      migEvent migEnv s₁ (.receive (migSkb false true 9 12)) ∧
      migStep migEnv s₁ (.receive (migSkb false true 9 12)) = .ok s₂ ∧
      s₁.host.sk.salState ≠ .initial ∧ s₂.host.sk.salState = .initial ∧
      s₂.requested = some 2 ∧ ¬ MigratedTo s₂ := by
  obtain ⟨s₁, first, passed⟩ := @exists_of_leaves _ (runAll (migStep migEnv) settledFlow crossing)
      (fun s => s.host.sk.salState = .recv && decide (MigPacket s.host (migSkb false true 9 12)) &&
        leaves (migStep migEnv s (.receive (migSkb false true 9 12)))
          (fun s' => s'.host.sk.salState = .initial &&
            s'.requested = some 2 && s'.host.sk.migDevIf = 2))
      (by decide +kernel)
  simp only [Bool.and_eq_true, decide_eq_true_eq] at passed
  obtain ⟨⟨recv, packet⟩, last⟩ := passed
  obtain ⟨s₂, last, passed⟩ := exists_of_leaves last
  simp only [Bool.and_eq_true, decide_eq_true_eq] at passed
  obtain ⟨⟨back, requested⟩, device⟩ := passed
  refine ⟨s₁, s₂, settledFlow_settled, by decide +kernel, first, packet, last, by simp [recv], back,
    requested, ?_⟩
  intro migrated
  have gone := (migrated.device 2 requested).2
  rw [device] at gone
  cases gone

end Serval
