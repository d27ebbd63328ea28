import Serval.Sal.Acts

/-!
# The life of a socket

What can happen to a socket that does not listen: packets, calls of the user
and of the transport protocol, timers, and changes of the service table.
-/

namespace Serval

open Serval.Support

def ServalSock.orphan (sk : ServalSock) : ServalSock := { sk with dead := true }

def ServalSock.shut (sk : ServalSock) : ServalSock := { sk with skShutdown := shutdownMask }

def closeIfOpen (env : SalEnv) (host : SalHost) : Except Fault SalHost :=
  if host.sk.skState = .closed then .ok host else servalSalClose env host

/-- `serval_release` for a socket that does not listen. -/
def servalRelease (env : SalEnv) (host : SalHost) : Except Fault SalHost := do
  let host ← closeIfOpen env (host.withSk host.sk.shut)
  let sk := host.sk.orphan
  .ok (host.withSk (if sk.skState = .closed then servalSockDestroy sk else sk))

/-- A connection is made once, and given up once. The transport protocol acts
on its own when the user has data or one of its timers expires. -/
inductive SockEvent
  | connect (srvid : Vector UInt8 32)
  | receive (skb : RcvSkb)
  | release
  | migrate (dev : Nat)
  | transport (reply : Reply)
  | rexmit
  | timewait
  | table (table : ServiceTable)

def sockStep (env : SalEnv) (host : SalHost) : SockEvent → Except Fault SalHost
  | .connect srvid =>
    if host.sk.skState = .init then do
      let (_, host) ← servalConnect env host srvid
      .ok host
    else
      .ok host
  | .receive skb => servalSalStateProcess env host skb
  | .release => if host.sk.dead then .ok host else servalRelease env host
  | .migrate dev => do
    let (_, host) ← servalSalMigrate env (host.withSk { host.sk with migDevIf := dev })
    .ok host
  | .transport reply => runReply env host reply
  | .rexmit => servalSalRexmitTimeout env host
  | .timewait => servalSalTimewaitTimeout host
  | .table table => .ok { host with table }

/-! ## Acts of the calls -/

def parted (state : SalState) : Bool :=
  match state with
  | .finwait1 | .finwait2 | .closing | .lastack | .timewait | .closed => true
  | _ => false

inductive Called : ServalSock → ServalSock → Prop
  | request {sk : ServalSock} (srvid : Vector UInt8 32) (init : sk.skState = .init) : Called sk
        (servalSockHash { sk with skState := .request, peerSrvid := srvid })
  | closed {sk : ServalSock} (keyLen : Nat) :
      Called sk { sk with hashKeyLen := keyLen, skState := .closed }
  | shut {sk : ServalSock} : Called sk sk.shut
  | finwait1 {sk : ServalSock} (here : sk.skState = .connected ∨ sk.skState = .respond) :
      Called sk { sk with skState := .finwait1 }
  | lastack {sk : ServalSock} (here : sk.skState = .closewait) :
      Called sk { sk with skState := .lastack }
  | orphaned {sk : ServalSock} (gone : parted sk.skState = true) : Called sk sk.orphan
  | destroyed {sk : ServalSock} (gone : sk.skState = .closed) :
      Called sk (servalSockDestroy sk.orphan)
  | migDev {sk : ServalSock} (dev : Nat) : Called sk { sk with migDevIf := dev }
  | markSent {sk : ServalSock} {skb : CtrlSkb} {rest : List CtrlSkb}
      (first : sk.ctrlSent = skb :: rest) :
      Called sk { sk with ctrlSent := markRetrans skb :: rest }
  | markUnsent {sk : ServalSock} {skb : CtrlSkb} {rest : List CtrlSkb}
      (first : sk.ctrlUnsent = skb :: rest) :
      Called sk { sk with ctrlUnsent := markRetrans skb :: rest }
  | retried {sk : ServalSock} : Called sk
        { sk with retransmits := sk.retransmits + 1, retransmitTimer := true }
  | waited {sk : ServalSock} : Called sk { sk with twTimer := false }

inductive Retries : ServalSock → ServalSock → Prop
  | markSent {sk : ServalSock} {skb : CtrlSkb} {rest : List CtrlSkb}
      (first : sk.ctrlSent = skb :: rest) :
      Retries sk { sk with ctrlSent := markRetrans skb :: rest }
  | markUnsent {sk : ServalSock} {skb : CtrlSkb} {rest : List CtrlSkb}
      (first : sk.ctrlUnsent = skb :: rest) :
      Retries sk { sk with ctrlUnsent := markRetrans skb :: rest }
  | retried {sk : ServalSock} : Retries sk
        { sk with retransmits := sk.retransmits + 1, retransmitTimer := true }

theorem Retries.called {sk sk' : ServalSock} (retries : Retries sk sk') :
    Called sk sk' := by
  cases retries with
  | markSent first => exact .markSent first
  | markUnsent first => exact .markUnsent first
  | retried => exact .retried

def ServalSock.migrating (sk : ServalSock) : ServalSock :=
  { sk with sndNxt := sk.sndNxt + 1, salState := sk.salState.afterSend }

inductive CalledPush (start : ServalSock) : ServalSock → ServalSock → CtrlSkb → Prop
  | syn {sk : ServalSock} (data : List UInt8) (init : start.skState = .init) :
      CalledPush start sk { sk with sndNxt := sk.sndIss + 1 }
        (ctrlSkb svhSyn sk.sndIss data)
  | fin {sk : ServalSock} : CalledPush start sk sk.ending
        (ctrlSkb (finFlags sk.salState) sk.sndNxt [])
  | rsyn {sk : ServalSock} : CalledPush start sk sk.migrating (ctrlSkb
          (if closesOwn sk.skState then svhRsyn + svhFin else svhRsyn)
          sk.sndNxt [])

def calling (start : ServalSock) : Means where
  change := Called
  push := CalledPush start
  skip := True
  answer _ := False

section

variable {env : SalEnv} {start : ServalSock} {host host' : SalHost} {err : Int}

theorem servalSalSendSyn_does
    (init : start.skState = .init) (requested : host.sk.skState = .request)
    (run : servalSalSendSyn env host host.sk.sndIss = .ok (err, host')) :
    Does env (calling start) 1 host host' ∧ host'.sk.skState = .request := by
  rw [servalSalSendSyn] at run
  split at run
  · cases run
    exact ⟨Does.bump.mono (Nat.zero_le 1), requested⟩
  dsimp only at run
  split at run
  · cases run
    exact ⟨Does.bump.mono (Nat.zero_le 1), requested⟩
  · have pushed : Does env (calling start) 1 host.bump host' := .push (.syn _ init) run
    refine ⟨Does.bump.trans pushed, ?_⟩
    rw [(servalSalQueueAndPush_stage run).skState]
    exact requested

theorem servalConnect_does {srvid : Vector UInt8 32} (init : host.sk.skState = .init)
    (run : servalConnect env host srvid = .ok (err, host')) :
    Does env (calling host.sk) 1 host host' := by
  obtain ⟨⟨err', middle⟩, sent, run⟩ := of_bind run
  have requests : Does env (calling host.sk) 0 host (host.withSk (servalSockHash
            { host.sk with skState := .request, peerSrvid := srvid })) :=
    .change (.request srvid init)
  have requested : (servalSockHash
        { host.sk with skState := .request, peerSrvid := srvid }).skState =
        .request := by
    rw [servalSockHash]
    split
    · rfl
    · rfl
  obtain ⟨syn, state⟩ := servalSalSendSyn_does init requested sent
  have first := requests.trans syn
  dsimp only at run
  split at run
  · obtain ⟨unhashed, out, run⟩ := of_bind run
    cases run
    obtain ⟨keyLen, table, rfl, same⟩ := servalSockUnhash_spec out
    have table_eq : table = middle.table := same (by rw [state]; decide) (by rw [state]; decide)
    subst table_eq
    exact first.trans (.change (.closed keyLen))
  · cases run
    exact first

theorem parted_runReply {reply : Reply} (gone : parted host.sk.skState = true)
    (run : runReply env host reply = .ok host') :
    parted host'.sk.skState = true := by
  refine @runReply_keeps _ (fun host => parted host.sk.skState = true) _ _ _ ?_ ?_ ?_ gone run
  · rintro host host' gone ⟨_, _, _, _, rfl, -⟩
    exact gone
  · intro _ host host' err gone run
    rw [(servalSalQueueAndPush_stage run).skState]
    exact gone
  · intro _ host host' _ run
    rw [servalSalRcvReset_closed run]
    rfl

theorem servalSalSendActiveReset_does {means : Means}
    (run : servalSalSendActiveReset env host = .ok host') : Does env means 0 host host' := by
  rw [servalSalSendActiveReset] at run
  split at run
  · cases run
    exact .bump
  · obtain ⟨⟨err, last⟩, sent, run⟩ := of_bind run
    cases run
    exact Does.bump.trans (.send .reset sent)

theorem closeSend_does (gone : parted host.sk.skState = true)
    (run : closeSend env host = .ok host') :
    Does env (calling start) 1 host host' ∧ parted host'.sk.skState = true := by
  rw [closeSend] at run
  split at run
  · obtain ⟨⟨err, last⟩, pushed, run⟩ := of_bind run
    cases run
    refine ⟨servalSalSendFin_does (fun _ => .fin) pushed, ?_⟩
    rw [(servalSalQueueAndPush_stage pushed).skState]
    exact gone
  obtain ⟨middle, replied, run⟩ := of_bind run
  have still : parted middle.sk.skState = true := @parted_runReply _ host.bump _ _ gone replied
  have answered : Does env (calling start) 1 host.bump middle :=
    runReply_does (fun _ _ => .fin) replied
  have reply := Does.bump.trans answered
  split at run
  · obtain ⟨unhashed, out, run⟩ := of_bind run
    obtain ⟨keyLen, table, rfl, same⟩ := servalSockUnhash_spec out
    have table_eq : table = middle.table := by
      apply same
      · intro listen
        rw [listen] at still
        cases still
      · intro init
        rw [init] at still
        cases still
    subst table_eq
    have closed : Does env (calling start) 0 middle (middle.withSk
            { middle.sk with hashKeyLen := keyLen, skState := .closed }) :=
      .change (.closed keyLen)
    refine ⟨(reply.trans closed).trans (servalSalSendActiveReset_does run), ?_⟩
    obtain ⟨_, _, _, _, rfl, -⟩ := servalSalSendActiveReset_sends run
    rfl
  · cases run
    exact ⟨reply, still⟩

theorem servalSalClose_does (run : servalSalClose env host = .ok host') :
    Does env (calling start) 1 host host' ∧ parted host'.sk.skState = true := by
  rw [servalSalClose] at run
  split at run
  · rename_i here
    have moved : Does env (calling start) 0 host (host.setState .lastack) := .change (.lastack here)
    obtain ⟨does, gone⟩ := @closeSend_does _ start (host.setState _) _ rfl run
    exact ⟨moved.trans does, gone⟩
  · rename_i here
    have moved : Does env (calling start) 0 host (host.setState .finwait1) :=
      .change (.finwait1 (.inl here))
    obtain ⟨does, gone⟩ := @closeSend_does _ start (host.setState _) _ rfl run
    exact ⟨moved.trans does, gone⟩
  · rename_i here
    have moved : Does env (calling start) 0 host (host.setState .finwait1) :=
      .change (.finwait1 (.inr here))
    obtain ⟨does, gone⟩ := @closeSend_does _ start (host.setState _) _ rfl run
    exact ⟨moved.trans does, gone⟩
  · rename_i here
    cases run
    exact ⟨.nothing, by rw [here]; rfl⟩
  · rename_i here
    cases run
    exact ⟨.nothing, by rw [here]; rfl⟩
  · rename_i here
    cases run
    exact ⟨.nothing, by rw [here]; rfl⟩
  · rename_i here
    cases run
    exact ⟨.nothing, by rw [here]; rfl⟩
  · exact ⟨(Does.done run).mono (Nat.zero_le 1), by
      rw [servalSalDone_closed run]; rfl⟩

theorem servalRelease_does (run : servalRelease env host = .ok host') :
    Does env (calling start) 1 host host' := by
  obtain ⟨middle, closed, run⟩ := of_bind run
  have shut : Does env (calling start) 0 host (host.withSk host.sk.shut) := .change .shut
  have close : Does env (calling start) 1 (host.withSk host.sk.shut) middle ∧
        parted middle.sk.skState = true := by
    rw [closeIfOpen] at closed
    split at closed
    · rename_i gone
      cases closed
      refine ⟨.nothing, ?_⟩
      rw [gone]
      rfl
    · exact servalSalClose_does closed
  cases run
  split
  · rename_i gone
    exact (shut.trans close.1).trans (.change (.destroyed gone))
  · exact (shut.trans close.1).trans (.change (.orphaned close.2))

theorem servalSalMigrate_does (run : servalSalMigrate env host = .ok (err, host')) :
    Does env (calling start) 1 host host' := by
  rw [servalSalMigrate, servalSalSendRsyn] at run
  split at run
  · cases run
    exact .skip trivial
  · exact .push .rsyn run

theorem servalSalRexmit_does
    {means : Means} (may : ∀ {sk sk'}, Retries sk sk' → means.change sk sk')
    (run : servalSalRexmit env host = .ok host') :
    Does env means 0 host host' := by
  rw [servalSalRexmit] at run
  split at run
  · rename_i skb rest first
    obtain ⟨⟨err, last⟩, sent, run⟩ := of_bind run
    cases run
    have marked : Does env means 0 host (host.withSk
            { host.sk with ctrlSent := markRetrans skb :: rest }) :=
      .change (may (.markSent first))
    exact marked.trans (.send (.queued List.mem_cons_self) sent)
  · rename_i skb rest empty first
    obtain ⟨⟨err, last⟩, sent, run⟩ := of_bind run
    cases run
    have marked : Does env means 0 host (host.withSk
            { host.sk with ctrlUnsent := markRetrans skb :: rest }) :=
      .change (may (.markUnsent first))
    exact marked.trans (.send (.queued (List.mem_append_right _ List.mem_cons_self)) sent)
  · cases run
    exact .refl

theorem servalSalRexmitTimeout_does
    {means : Means} (may : ∀ {sk sk'}, Retries sk sk' → means.change sk sk')
    (run : servalSalRexmitTimeout env host = .ok host') :
    Does env means 0 host host' := by
  rw [servalSalRexmitTimeout] at run
  split at run
  · exact .done run
  · obtain ⟨middle, again, run⟩ := of_bind run
    cases run
    exact (servalSalRexmit_does may again).trans (.change (may .retried))

theorem servalSalTimewaitTimeout_does (run : servalSalTimewaitTimeout host = .ok host') :
    Does env (calling start) 0 host host' := by
  have waited : Does env (calling start) 0 host (host.withSk { host.sk with twTimer := false }) :=
    .change .waited
  exact waited.trans (.done run)

end

/-! ## Acts of an event -/

def SockEvent.means (env : SalEnv) (start : ServalSock) : SockEvent → Means
  | .receive skb => receiving env skb start
  | _ => calling start

/-- Every event is a sequence of acts with two new numbers at most, or it
replaces the service table. -/
theorem sockStep_does {env : SalEnv} {host host' : SalHost} {event : SockEvent}
    (notListen : host.sk.skState ≠ .listen)
    (run : sockStep env host event = .ok host') :
    Does env (event.means env host.sk) 2 host host' ∨
      ∃ table, host' = { host with table } := by
  cases event with
  | connect srvid =>
    left
    rw [sockStep] at run
    split at run
    · rename_i init
      obtain ⟨⟨err, last⟩, connected, run⟩ := of_bind run
      cases run
      exact (servalConnect_does init connected).mono (by decide)
    · cases run
      exact Does.refl.mono (by decide)
  | receive skb => exact .inl (stateProcess_does notListen run)
  | release =>
    left
    rw [sockStep] at run
    split at run
    · cases run
      exact Does.refl.mono (by decide)
    · exact (servalRelease_does run).mono (by decide)
  | migrate dev =>
    left
    obtain ⟨⟨err, last⟩, migrated, run⟩ := of_bind run
    cases run
    have first : Does env (calling host.sk) 0 host (host.withSk { host.sk with migDevIf := dev }) :=
      .change (.migDev dev)
    exact (first.trans (servalSalMigrate_does migrated)).mono (by decide)
  | transport reply =>
    left
    have replied : Does env (calling host.sk) 1 host host' := runReply_does (fun _ _ => .fin) run
    exact replied.mono (by decide)
  | rexmit =>
    exact .inl ((servalSalRexmitTimeout_does Retries.called run).mono (by decide))
  | timewait =>
    exact .inl ((servalSalTimewaitTimeout_does run).mono (by decide))
  | table table =>
    cases run
    exact .inr ⟨table, rfl⟩

end Serval
