import Serval.Sal.Listener
import Serval.Sal.Resolution

/-!
# The backlog of a listener

A listener counts the requests in its two queues, and refuses new ones when
the count has reached the limit of the last `listen`. Requests enter with a
SYN, change the queue with the last packet of the handshake, and leave with
`accept` or when the listener is closed.
-/

namespace Serval

open Serval.Support

/-- What `serval_autobind` leaves: a random name, and the socket in the
service table under it. -/
structure Autobound where
  localSrvid : Vector UInt8 32
  hashKeyLen : Nat
  table : ServiceTable

/-- What `serval_listen` asks before it starts: the type of the socket, the
state of its file, whether it has a name, and if not whether it gets one. -/
structure ListenCall where
  backlog : Int
  dgramOrStream : Bool
  unconnected : Bool
  bound : Bool
  autobind : Option Autobound

def servalListenStart (sk : ServalSock) : ServalSock :=
  { sk with skState := .listen, ackBacklog := 0 }

/-- An `int` that is stored in an `unsigned short`. -/
def shortOfInt (n : Int) : UInt16 := UInt16.ofNat (n % 65536).toNat

/-- The name that the socket has or gets; none if there is no name to get. -/
def ListenCall.named (call : ListenCall) (host : SalHost) : Option SalHost :=
  if call.bound then
    some host
  else
    call.autobind.map fun auto =>
      { host with
        sk :=
          { host.sk with
            localSrvid := auto.localSrvid
            srvidPrefixBits := 0
            hashKeyLen := auto.hashKeyLen }
        table := auto.table }

def servalListen (host : SalHost) (call : ListenCall) : Int × SalHost :=
  if !call.dgramOrStream then
    (-EOPNOTSUPP, host)
  else if !call.unconnected then
    (-EINVAL, host)
  else
    match call.named host with
    | none => (-EAGAIN, host)
    | some host =>
      (0, host.withSk
        { servalListenStart host.sk with
          maxAckBacklog := shortOfInt call.backlog })

private def dropRequests : List RequestSock → UInt16 → UInt16
  | [], backlog => backlog
  | _ :: rest, backlog => dropRequests rest (backlog - 1)

def servalListenStop (sk : ServalSock) : ServalSock :=
  { sk with
    synQueue := []
    acceptQueue := []
    ackBacklog := dropRequests sk.acceptQueue (dropRequests sk.synQueue sk.ackBacklog) }

/-- `serval_accept` of a call that does not sleep. -/
def servalAccept (host : SalHost) : Int × SalHost :=
  if host.sk.skState = .listen then
    (if host.sk.acceptQueue.isEmpty then -EAGAIN else 0, servalAcceptDequeue host)
  else
    (-EBADFD, host)

/-- `serval_release`, also for a listener. Setting the state to `SAL_CLOSED`
takes the listener out of the service table first. -/
def releaseAny (env : SalEnv) (host : SalHost) : Except Fault SalHost :=
  if host.sk.skState = .listen then do
    let host ← servalSockUnhash (host.withSk (servalListenStop host.sk.shut))
    .ok
      (host.withSk (servalSockDestroy { host.sk with skState := .closed }.orphan))
  else
    servalRelease env host

/-- A socket, with the backlog of the last call of `listen` that succeeded. -/
structure Backlogged where
  host : SalHost
  backlog : Option Int

/-- What happens to a listener; `wake` is the end of a call of `accept` that
slept in `serval_wait_for_connect`, in whatever state the socket is by then. -/
inductive BacklogEvent
  | listen (call : ListenCall)
  | receive (skb : RcvSkb)
  | accept
  | wake
  | close

def backlogStep (env : SalEnv) (s : Backlogged) : BacklogEvent → Except Fault Backlogged
  | .listen call =>
    if s.host.sk.dead then
      .ok s
    else
      let (err, host) := servalListen s.host call
      .ok ⟨host, if err = 0 then some call.backlog else s.backlog⟩
  | .receive skb => do
    let host ← servalSalStateProcess env s.host skb
    .ok { s with host }
  | .accept =>
    if s.host.sk.dead then .ok s
    else .ok { s with host := (servalAccept s.host).2 }
  | .wake => .ok { s with host := servalAcceptDequeue s.host }
  | .close =>
    if s.host.sk.dead then
      .ok s
    else do
      let host ← releaseAny env s.host
      .ok { s with host }

def ServalSock.waiting (sk : ServalSock) : Nat := sk.synQueue.length + sk.acceptQueue.length

def BacklogEvent.underflows (sk : ServalSock) : BacklogEvent → Prop
  | .accept => sk.skState = .listen ∧ sk.acceptQueue ≠ [] ∧ sk.ackBacklog = 0
  | .wake => sk.acceptQueue ≠ [] ∧ sk.ackBacklog = 0
  | .close => sk.skState = .listen ∧ sk.ackBacklog.toNat < sk.waiting
  | _ => False

/-- A SYN of a new flow that passes every check of the listener but the one
for space. -/
structure AcceptableSyn (env : SalEnv) (host : SalHost) (skb : RcvSkb) : Prop where
  listening : host.sk.skState = .listen
  syn : skb.hdr.hasSyn = true
  noAck : skb.hdr.hasAck = false
  noReset : skb.hdr.hasRst = false
  fresh : servalSalFindRsk host.sk skb.hdr = none
  valid : hasValidControlExtension host.sk skb.hdr = true
  service : hasServiceExtension skb.hdr = true
  address : (env.devAddr skb.dev).isSome = true
  request : (env.reqsk host.tick).isSome = true
  transport : env.transport.connRequest host.tick = 0

private def RefusesSyn (env : SalEnv) (host : SalHost) (skb : RcvSkb) : Prop :=
  ∃ host', servalSalStateProcess env host skb = .ok host' ∧ host'.sk.synQueue = host.sk.synQueue

/-- The counter is the number of requests that wait. -/
structure BacklogSound (env : SalEnv) (s : Backlogged) : Prop where
  counts : s.host.sk.skState = .listen → s.host.sk.ackBacklog.toNat = s.host.sk.waiting
  noUnderflow : ∀ event : BacklogEvent, ¬ event.underflows s.host.sk
  refusal :
    ∀ skb, AcceptableSyn env s.host skb → RefusesSyn env s.host skb →
      ∃ backlog, s.backlog = some backlog ∧ backlog ≤ (s.host.sk.waiting : Int)

/-! ## Sockets that do not listen -/

structure SameBacklog (sk sk' : ServalSock) : Prop where
  synQueue : sk'.synQueue = sk.synQueue
  acceptQueue : sk'.acceptQueue = sk.acceptQueue
  ackBacklog : sk'.ackBacklog = sk.ackBacklog
  maxAckBacklog : sk'.maxAckBacklog = sk.maxAckBacklog
  notListen : sk.skState ≠ .listen → sk'.skState ≠ .listen

namespace SameBacklog

variable {sk sk' sk'' : ServalSock} {host host' : SalHost}

private theorem refl : SameBacklog sk sk := ⟨rfl, rfl, rfl, rfl, id⟩

private theorem trans (first : SameBacklog sk sk') (second : SameBacklog sk' sk'') :
    SameBacklog sk sk'' where
  synQueue := second.synQueue.trans first.synQueue
  acceptQueue := second.acceptQueue.trans first.acceptQueue
  ackBacklog := second.ackBacklog.trans first.ackBacklog
  maxAckBacklog := second.maxAckBacklog.trans first.maxAckBacklog
  notListen := second.notListen ∘ first.notListen

private theorem waiting (same : SameBacklog sk sk') : sk'.waiting = sk.waiting := by
  rw [ServalSock.waiting, ServalSock.waiting, same.synQueue, same.acceptQueue]

private theorem of_books (books : Bookkeeping sk sk') : SameBacklog sk sk' := by
  obtain ⟨_, _, _, _, _, _, _, _, _, _, _, _, state, rfl⟩ := books
  refine ⟨rfl, rfl, rfl, rfl, fun notListen => ?_⟩
  rcases state with rfl | rfl
  · exact notListen
  · nofun

private theorem of_sends {sent : WirePacket → Prop} (sends : Sends sent host host') :
    SameBacklog host.sk host'.sk := of_books (.of_sends sends)

private theorem of_done (run : servalSalDone host = .ok host') : SameBacklog host.sk host'.sk :=
  of_books (.of_done run)

variable {env : SalEnv} {start : ServalSock} {n : Nat}

private theorem of_hash : SameBacklog sk (servalSockHash sk) := by
  rw [servalSockHash]
  split
  · exact refl
  · exact ⟨rfl, rfl, rfl, rfl, id⟩

private theorem of_received {skb : RcvSkb} (change : Received env skb start sk sk') :
    SameBacklog sk sk' := by
  cases change with
  | connected | established | closewait =>
    exact ⟨rfl, rfl, rfl, rfl, fun _ => SalState.noConfusion⟩
  | moves moves =>
    refine ⟨rfl, rfl, rfl, rfl, fun _ => ?_⟩
    exact flowing_notListen moves.flowing
  | _ => exact ⟨rfl, rfl, rfl, rfl, id⟩

private theorem of_called (change : Called sk sk') : SameBacklog sk sk' := by
  cases change with
  | request srvid init =>
    have requested : SameBacklog sk { sk with skState := .request, peerSrvid := srvid } :=
      ⟨rfl, rfl, rfl, rfl, fun _ => SalState.noConfusion⟩
    exact requested.trans of_hash
  | closed | finwait1 | lastack =>
    exact ⟨rfl, rfl, rfl, rfl, fun _ => SalState.noConfusion⟩
  | _ => exact ⟨rfl, rfl, rfl, rfl, id⟩

/-- Acts are made of changes and pushes that leave the backlog alone. -/
theorem of_acts {means : Means} (change : ∀ {sk sk'}, means.change sk sk' → SameBacklog sk sk')
    (push : ∀ {sk sk' skb}, means.push sk sk' skb → SameBacklog sk sk')
    (acts : Acts env means n host host') : SameBacklog host.sk host'.sk :=
  acts.keeps_sk (fun books same => same.trans (of_books books))
    (fun changed same => same.trans (change changed)) (fun pushes same => same.trans (push pushes))
    refl

theorem of_receiving {skb : RcvSkb} (does : Does env (receiving env skb start) n host host') :
    SameBacklog host.sk host'.sk := by
  obtain ⟨m, -, acts⟩ := does
  refine of_acts of_received ?_ acts
  intro sk sk' skb pushes
  cases pushes <;> exact ⟨rfl, rfl, rfl, rfl, id⟩

theorem of_calling (does : Does env (calling start) n host host') :
    SameBacklog host.sk host'.sk := by
  obtain ⟨m, -, acts⟩ := does
  refine of_acts of_called ?_ acts
  intro sk sk' skb pushes
  cases pushes <;> exact ⟨rfl, rfl, rfl, rfl, id⟩

end SameBacklog

/-- A listener counts a request more when there is room for it, or it holds as
many as before. -/
structure TakesRequests (sk sk' : ServalSock) : Prop where
  maxAckBacklog : sk'.maxAckBacklog = sk.maxAckBacklog
  requests :
    sk'.ackBacklog = sk.ackBacklog ∧ sk'.waiting = sk.waiting ∨
      sk.ackBacklog < sk.maxAckBacklog ∧
        sk'.ackBacklog = sk.ackBacklog + 1 ∧ sk'.waiting = sk.waiting + 1

private theorem SameBacklog.takes {sk sk' : ServalSock} (same : SameBacklog sk sk') :
    TakesRequests sk sk' :=
  ⟨same.maxAckBacklog, .inl ⟨same.ackBacklog, same.waiting⟩⟩

private theorem TakesRequests.after {sk sk' sk'' : ServalSock} (second : TakesRequests sk' sk'')
    (first : SameBacklog sk sk') : TakesRequests sk sk'' := by
  obtain ⟨limit, requests⟩ := second
  rw [first.maxAckBacklog] at limit
  rw [first.ackBacklog, first.maxAckBacklog, first.waiting] at requests
  exact ⟨limit, requests⟩

section

variable {env : SalEnv} {host host' : SalHost} {skb : RcvSkb}

private theorem addRequest_waiting (sk : ServalSock) (rsk : RequestSock) :
    (addRequest sk rsk).waiting = sk.waiting + 1 := by
  simp only [addRequest, ServalSock.waiting, List.length_cons]
  omega

private theorem moveRequest_waiting {sk : ServalSock} {hdr : SalHeader} {rsk : RequestSock}
    (found : matchRequest sk hdr = some rsk) :
    (moveRequest sk rsk).waiting = sk.waiting := by
  rw [matchRequest, Option.filter_eq_some_iff] at found
  have member : rsk ∈ sk.synQueue := List.mem_of_find?_eq_some found.1
  have erased : (sk.synQueue.eraseP fun other => other.localFlowid = rsk.localFlowid).length =
        sk.synQueue.length - 1 :=
    List.length_eraseP_of_mem member (by simp)
  have some := List.length_pos_of_mem member
  simp only [moveRequest, ServalSock.waiting, erased, List.length_append, List.length_singleton]
  omega

private theorem servalSalRcvSyn_takes (run : servalSalRcvSyn env host skb = .ok host') :
    TakesRequests host.sk host'.sk := by
  by_cases full : host.sk.maxAckBacklog ≤ host.sk.ackBacklog
  · rw [servalSalRcvSyn, if_pos full, ite_self] at run
    cases run
    exact SameBacklog.refl.takes
  rcases servalSalRcvSyn_spec run with
    ⟨tick, -, rfl⟩ | ⟨ctrl, srv, myaddr, fresh, -, -, -, -, sends⟩
  · exact SameBacklog.refl.takes
  · have same := SameBacklog.of_sends sends
    refine ⟨same.maxAckBacklog, .inr ⟨UInt16.not_le.mp full, same.ackBacklog, ?_⟩⟩
    rw [same.waiting]
    exact addRequest_waiting _ _

private theorem servalSalChildProcess_sk {child : ServalSock}
    (run : servalSalChildProcess env host child skb = .ok host') :
    host'.sk = host.sk := by
  obtain ⟨done, -, run⟩ := of_bind run
  cases run
  rfl

private theorem servalSalListenStateProcess_takes
    (run : servalSalListenStateProcess env host skb = .ok host') :
    TakesRequests host.sk host'.sk := by
  rw [servalSalListenStateProcess] at run
  split at run
  · split at run
    · obtain ⟨⟨err, last⟩, sent, run⟩ := of_bind run
      cases run
      exact (SameBacklog.of_sends (servalSalSendSynack_sends sent)).takes
    · exact servalSalRcvSyn_takes run
  split at run
  · rcases handled : servalSalRequestSockHandle env host skb with
      ⟨child, middle⟩
    rw [handled] at run
    rcases servalSalRequestSockHandle_spec handled with
      ⟨rfl, tick, -, rfl⟩ | ⟨rsk, found, rfl, rfl⟩
    · cases run
      exact SameBacklog.refl.takes
    · rw [servalSalChildProcess_sk run]
      exact ⟨rfl, .inl ⟨rfl, moveRequest_waiting found⟩⟩
  · exact (SameBacklog.of_sends (servalSalSendReset_sends run)).takes

/-- A packet for a listener closes it, or leaves it one that has taken a
request at most. -/
theorem servalSalStateProcess_takes (listening : host.sk.skState = .listen)
    (run : servalSalStateProcess env host skb = .ok host') :
    TakesRequests host.sk host'.sk := by
  have fresh : hasValidVerno skb.hdr.verno host.sk = true := by simp [hasValidVerno, listening]
  rw [servalSalStateProcess, stateProcess, if_neg (by rw [fresh]; simp)] at run
  split at run
  · rw [servalSalRcvReset, if_neg (by rw [listening]; decide)] at run
    exact (SameBacklog.of_done run).takes
  obtain ⟨middle, migrated, run⟩ := of_bind run
  have still := rcvMigration_listens listening migrated
  have same : SameBacklog host.sk middle.sk :=
    .of_receiving (@rcvMigration_does _ _ host.sk _ _ migrated).1
  simp only [stateSwitch, still.skState] at run
  exact (servalSalListenStateProcess_takes run).after same

/-- The request that a listener with space takes, and answers. -/
theorem AcceptableSyn.rcvSyn (acceptable : AcceptableSyn env host skb)
    (room : ¬ host.sk.maxAckBacklog ≤ host.sk.ackBacklog) :
    ∃ rsk, servalSalRcvSyn env host skb =
      servalSalSendSynack env (host.bump.withSk (addRequest host.sk rsk)) rsk skb >>=
        fun result => .ok result.2 := by
  obtain ⟨ctrl, control⟩ : ∃ ctrl, skb.hdr.ctrlExt = some ctrl := by
    have valid := acceptable.valid
    rw [hasValidControlExtension] at valid
    split at valid
    · cases valid
    · exact ⟨_, by assumption⟩
  obtain ⟨srv, service⟩ : ∃ srv, skb.hdr.srvExt0 = some srv := by
    have service := acceptable.service
    rw [hasServiceExtension] at service
    split at service
    · cases service
    · exact ⟨_, by assumption⟩
  obtain ⟨myaddr, address⟩ := Option.isSome_iff_exists.mp acceptable.address
  obtain ⟨fresh, request⟩ := Option.isSome_iff_exists.mp acceptable.request
  have passes : ¬ (!hasValidControlExtension host.sk skb.hdr ||
        !hasServiceExtension skb.hdr) = true := by
    rw [acceptable.valid, acceptable.service]
    decide
  refine ⟨fillRequestSock fresh skb ctrl srv myaddr, ?_⟩
  rw [servalSalRcvSyn, if_neg passes, if_neg room, control, service, address, request]
  simp only [acceptable.transport, ne_eq, not_true_eq_false, if_false]

private theorem AcceptableSyn.taken (acceptable : AcceptableSyn env host skb)
    (room : ¬ host.sk.maxAckBacklog ≤ host.sk.ackBacklog)
    (run : servalSalRcvSyn env host skb = .ok host') :
    ∃ rsk, host'.sk.synQueue = rsk :: host.sk.synQueue := by
  obtain ⟨rsk, form⟩ := acceptable.rcvSyn room
  rw [form] at run
  obtain ⟨⟨err, last⟩, sent, run⟩ := of_bind run
  cases run
  exact ⟨rsk, (SameBacklog.of_sends (servalSalSendSynack_sends sent)).synQueue⟩

private theorem AcceptableSyn.full (acceptable : AcceptableSyn env host skb)
    (refused : RefusesSyn env host skb) :
    host.sk.maxAckBacklog ≤ host.sk.ackBacklog := by
  obtain ⟨host', run, same⟩ := refused
  have fresh : hasValidVerno skb.hdr.verno host.sk = true := by
    simp [hasValidVerno, acceptable.listening]
  have unmoved : rcvMigration env host skb = .ok host := by
    simp [rcvMigration, servalSalRcvRsyn, acceptable.noAck, acceptable.listening]
  rw [servalSalStateProcess, stateProcess, fresh, acceptable.noReset, unmoved]
    at run
  simp only [Bool.not_true, Bool.and_false, Bool.false_eq_true, if_false, ok_bind, stateSwitch,
    acceptable.listening, servalSalListenStateProcess,
    acceptable.syn, acceptable.noAck, Bool.not_false, Bool.and_self, if_true,
    acceptable.fresh] at run
  by_contra room
  obtain ⟨rsk, taken⟩ := acceptable.taken room run
  rw [taken] at same
  exact List.cons_ne_self _ _ same

end

/-! ## Runs of a listener -/

structure BacklogCounted (s : Backlogged) : Prop where
  counts : s.host.sk.ackBacklog.toNat = s.host.sk.waiting
  limited :
    s.host.sk.skState = .listen →
      ∃ backlog, s.backlog = some backlog ∧ backlog < 65536 ∧
        s.host.sk.maxAckBacklog = shortOfInt backlog

/-- A call of `listen` that gets through finds both queues empty, and its
backlog fits the field of the socket. -/
def listensEmpty (s : Backlogged) : BacklogEvent → Prop
  | .listen call =>
    s.host.sk.dead = false → (servalListen s.host call).1 = 0 →
      s.host.sk.synQueue = [] ∧ s.host.sk.acceptQueue = [] ∧ call.backlog < 65536
  | _ => True

private theorem le_shortOfInt {n : Int} (small : n < 65536) : n ≤ ((shortOfInt n).toNat : Int) := by
  rw [shortOfInt, UInt16.toNat_ofNat']
  omega

section

variable {env : SalEnv} {s s' : Backlogged}

theorem BacklogCounted.pos (accounted : BacklogCounted s) (some : s.host.sk.acceptQueue ≠ []) :
    0 < s.host.sk.ackBacklog.toNat := by
  rw [accounted.counts, ServalSock.waiting]
  have := List.length_pos_of_ne_nil some
  omega

private theorem BacklogCounted.sound (accounted : BacklogCounted s) : BacklogSound env s where
  counts := fun _ => accounted.counts
  noUnderflow := by
    intro event under
    cases event with
    | listen | receive => exact under
    | accept =>
      obtain ⟨-, some, empty⟩ := under
      have pos := accounted.pos some
      rw [empty] at pos
      exact absurd pos (by decide)
    | wake =>
      obtain ⟨some, empty⟩ := under
      have pos := accounted.pos some
      rw [empty] at pos
      exact absurd pos (by decide)
    | close => exact absurd accounted.counts (Nat.ne_of_lt under.2)
  refusal := by
    intro skb acceptable refused
    obtain ⟨backlog, last, small, limit⟩ := accounted.limited acceptable.listening
    have full := UInt16.le_iff_toNat_le.mp (acceptable.full refused)
    have fits := le_shortOfInt small
    rw [limit, accounted.counts] at full
    exact ⟨backlog, last, by omega⟩

variable {host : SalHost}

theorem BacklogCounted.same (accounted : BacklogCounted s) (other : s.host.sk.skState ≠ .listen)
    (same : SameBacklog s.host.sk host.sk) :
    BacklogCounted { s with host } where
  counts := by
    show host.sk.ackBacklog.toNat = host.sk.waiting
    rw [same.ackBacklog, same.waiting, accounted.counts]
  limited listening := absurd listening (same.notListen other)

private theorem BacklogCounted.takes (accounted : BacklogCounted s)
    (listening : s.host.sk.skState = .listen)
    (takes : TakesRequests s.host.sk host.sk) :
    BacklogCounted { s with host } where
  counts := by
    show host.sk.ackBacklog.toNat = host.sk.waiting
    rcases takes.requests with ⟨count, held⟩ | ⟨room, count, held⟩
    · rw [count, held, accounted.counts]
    · have below := UInt16.lt_iff_toNat_lt.mp room
      have limit := s.host.sk.maxAckBacklog.toNat_lt
      rw [count, held, ← accounted.counts]
      exact Nat.mod_eq_of_lt (by simp; omega)
  limited _ := by
    obtain ⟨backlog, last, small, limit⟩ := accounted.limited listening
    exact ⟨backlog, last, small, takes.maxAckBacklog.trans limit⟩

private theorem toNat_pred {n : UInt16} (pos : 0 < n.toNat) : (n - 1).toNat = n.toNat - 1 := by
  have limit := n.toNat_lt
  rw [UInt16.toNat_sub]
  simp
  omega

private theorem BacklogCounted.dequeue (accounted : BacklogCounted s) :
    BacklogCounted { s with host := servalAcceptDequeue s.host } := by
  cases queue : s.host.sk.acceptQueue with
  | nil =>
    rw [servalAcceptDequeue, queue]
    exact accounted
  | cons rsk rest =>
    have pos := accounted.pos (by rw [queue]; exact List.cons_ne_nil _ _)
    have counts := accounted.counts
    rw [servalAcceptDequeue, queue]
    refine ⟨?_, accounted.limited⟩
    show (s.host.sk.ackBacklog - 1).toNat = s.host.sk.synQueue.length + rest.length
    rw [ServalSock.waiting, queue, List.length_cons] at counts
    rw [toNat_pred pos]
    omega

private theorem dropRequests_toNat
    {queue : List RequestSock} {n : UInt16} (enough : queue.length ≤ n.toNat) :
    (dropRequests queue n).toNat = n.toNat - queue.length := by
  induction queue generalizing n with
  | nil => rfl
  | cons rsk rest ih =>
    rw [List.length_cons] at enough
    have next := toNat_pred (n := n) (by omega)
    rw [dropRequests, ih (by omega), List.length_cons]
    omega

private theorem BacklogCounted.stopped (accounted : BacklogCounted s) :
    (servalListenStop s.host.sk.shut).ackBacklog = 0 := by
  have counts := accounted.counts
  rw [ServalSock.waiting] at counts
  have first : (dropRequests s.host.sk.synQueue s.host.sk.ackBacklog).toNat =
        s.host.sk.acceptQueue.length := by
    rw [dropRequests_toNat (by omega)]
    omega
  apply UInt16.toNat_inj.mp
  show (dropRequests s.host.sk.acceptQueue
    (dropRequests s.host.sk.synQueue s.host.sk.ackBacklog)).toNat = 0
  rw [dropRequests_toNat (by omega)]
  omega

private theorem BacklogCounted.release (accounted : BacklogCounted s)
    (run : releaseAny env s.host = .ok host) :
    BacklogCounted { s with host } := by
  rw [releaseAny] at run
  split at run
  · obtain ⟨middle, unhashed, run⟩ := of_bind run
    cases run
    obtain ⟨keyLen, table, rfl, -⟩ := servalSockUnhash_spec unhashed
    refine ⟨?_, fun listening => nomatch listening⟩
    show (servalListenStop s.host.sk.shut).ackBacklog.toNat = 0
    rw [accounted.stopped]
    rfl
  · rename_i other
    have does := @servalRelease_does _ s.host.sk _ _ run
    exact accounted.same other (.of_calling does)

private theorem ListenCall.named_waiting {call : ListenCall} {host' : SalHost}
    (named : call.named host = some host') :
    host'.sk.waiting = host.sk.waiting := by
  rw [ListenCall.named] at named
  split at named
  · cases named
    rfl
  · obtain ⟨auto, -, rfl⟩ := Option.map_eq_some_iff.mp named
    rfl

/-- A call of `listen` fails, or it starts a listener that counts from 0. -/
theorem servalListen_spec (host : SalHost) (call : ListenCall) :
    ((servalListen host call).1 ≠ 0 ∧ (servalListen host call).2 = host) ∨
      (servalListen host call).1 = 0 ∧
        ∃ host', call.named host = some host' ∧
          (servalListen host call).2 = host'.withSk
              { servalListenStart host'.sk with
                maxAckBacklog := shortOfInt call.backlog } := by
  rw [servalListen]
  split
  · exact .inl ⟨(by decide : -EOPNOTSUPP ≠ 0), rfl⟩
  split
  · exact .inl ⟨(by decide : -EINVAL ≠ 0), rfl⟩
  split
  · exact .inl ⟨(by decide : -EAGAIN ≠ 0), rfl⟩
  · rename_i host' named
    exact .inr ⟨rfl, host', named, rfl⟩

private theorem BacklogCounted.listen {call : ListenCall} (accounted : BacklogCounted s)
    (alive : s.host.sk.dead = false)
    (empty : listensEmpty s (.listen call)) :
    BacklogCounted
      ⟨(servalListen s.host call).2,
        if (servalListen s.host call).1 = 0 then some call.backlog
        else s.backlog⟩ := by
  rcases servalListen_spec s.host call with
    ⟨failed, same⟩ | ⟨through, host, named, started⟩
  · rw [if_neg failed, same]
    exact accounted
  obtain ⟨noSyn, noAccept, small⟩ := empty alive through
  rw [if_pos through, started]
  refine ⟨?_, fun _ => ⟨call.backlog, rfl, small, rfl⟩⟩
  show 0 = host.sk.waiting
  rw [call.named_waiting named, ServalSock.waiting, noSyn, noAccept]
  rfl

private theorem backlogStep_counted {event : BacklogEvent} (accounted : BacklogCounted s)
    (empty : listensEmpty s event)
    (run : backlogStep env s event = .ok s') : BacklogCounted s' := by
  cases event with
  | listen call =>
    rw [backlogStep] at run
    split at run
    · cases run
      exact accounted
    · rename_i alive
      cases run
      exact accounted.listen (by simpa using alive) empty
  | receive skb =>
    obtain ⟨host, processed, run⟩ := of_bind run
    cases run
    by_cases listening : s.host.sk.skState = .listen
    · exact accounted.takes listening (servalSalStateProcess_takes listening processed)
    · exact accounted.same listening (.of_receiving (stateProcess_does listening processed))
  | accept =>
    rw [backlogStep] at run
    split at run
    · cases run
      exact accounted
    cases run
    rw [servalAccept]
    split
    · exact accounted.dequeue
    · exact accounted
  | wake =>
    cases run
    exact accounted.dequeue
  | close =>
    rw [backlogStep] at run
    split at run
    · cases run
      exact accounted
    · obtain ⟨host, released, run⟩ := of_bind run
      cases run
      exact accounted.release released

structure NewSock (s : Backlogged) : Prop where
  state : s.host.sk.skState = .init
  synQueue : s.host.sk.synQueue = []
  acceptQueue : s.host.sk.acceptQueue = []
  ackBacklog : s.host.sk.ackBacklog = 0
  backlog : s.backlog = none

private theorem NewSock.accounted (new : NewSock s) : BacklogCounted s where
  counts := by
    rw [new.ackBacklog, ServalSock.waiting, new.synQueue, new.acceptQueue]
    rfl
  limited listening := by
    rw [new.state] at listening
    cases listening

/-- In every state of a run whose calls of `listen` all find the queues empty
and pass a backlog of 16 bits, the counter counts. -/
theorem backlogRun_sound {history : List BacklogEvent} (new : NewSock s)
    (empty : Admits (backlogStep env) listensEmpty s history)
    (run : runAll (backlogStep env) s history = .ok s') :
    BacklogSound env s' := by
  have accounted : BacklogCounted s' := runAll_invariant (fun _ _ _ accounted empty run =>
        backlogStep_counted accounted empty run)
      new.accounted empty run
  exact accounted.sound

end

def newListener : Backlogged :=
  ⟨plainListener.withSk { plainListener.sk with skState := .init }, none⟩

def plainListen (backlog : Int) : BacklogEvent := .listen ⟨backlog, true, true, true, none⟩

private theorem newListener_new : NewSock newListener := ⟨rfl, rfl, rfl, rfl, rfl⟩

/-- A SYN, and `accept` before its handshake is over. -/
theorem backlogRun_sound_request : ∃ s', NewSock newListener ∧
      Admits (backlogStep plainEnv) listensEmpty newListener
        [plainListen 4, .receive requestSkb, .accept] ∧
      runAll (backlogStep plainEnv) newListener
        [plainListen 4, .receive requestSkb, .accept] = .ok s' ∧
      s'.host.sk.skState = .listen ∧ s'.host.sk.waiting = 1 ∧ BacklogSound plainEnv s' := by
  obtain ⟨s', run, passed⟩ := @exists_of_leaves _ (runAll (backlogStep plainEnv) newListener
        [plainListen 4, .receive requestSkb, .accept])
      (fun s => s.host.sk.skState = .listen && s.host.sk.waiting = 1)
      (by decide +kernel)
  have empty : Admits (backlogStep plainEnv) listensEmpty newListener
        [plainListen 4, .receive requestSkb, .accept] :=
    ⟨fun _ _ => ⟨rfl, rfl, by decide⟩, fun _ _ => ⟨trivial, fun _ _ =>
      ⟨trivial, fun _ _ => trivial⟩⟩⟩
  have passed : s'.host.sk.skState = .listen ∧ s'.host.sk.waiting = 1 := by simpa using passed
  exact ⟨s', newListener_new, empty, run, passed.1, passed.2,
    backlogRun_sound newListener_new empty run⟩

/-- A second call of `listen` forgets the request that waits. -/
theorem listen_again_forgets : ∃ s', NewSock newListener ∧
      runAll (backlogStep plainEnv) newListener
        [plainListen 4, .receive requestSkb, plainListen 4] = .ok s' ∧
      s'.host.sk.skState = .listen ∧ s'.host.sk.ackBacklog = 0 ∧
      s'.host.sk.waiting = 1 ∧ ¬ BacklogSound plainEnv s' := by
  obtain ⟨s', run, passed⟩ := @exists_of_leaves _ (runAll (backlogStep plainEnv) newListener
        [plainListen 4, .receive requestSkb, plainListen 4])
      (fun s => s.host.sk.skState = .listen && s.host.sk.ackBacklog = 0 && s.host.sk.waiting = 1)
      (by decide +kernel)
  simp only [Bool.and_eq_true, decide_eq_true_eq] at passed
  obtain ⟨⟨listening, zero⟩, one⟩ := passed
  refine ⟨s', newListener_new, run, listening, zero, one, ?_⟩
  intro sound
  have counts := sound.counts listening
  rw [zero, one] at counts
  exact absurd counts (by decide)

end Serval
