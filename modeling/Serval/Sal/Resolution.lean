import Serval.Sal.Calls
import Serval.Support.Run

/-!
# Resolution of every packet

The address of the peer is noted in the handshake and in a migration, but no
packet goes there because of it: each packet of a flow goes to a target of the
peer's service, looked up in the table of that moment.
-/

namespace Serval

open Serval.Support

def flowing : SalState → Bool
  | .init | .listen | .request | .respond => false
  | _ => true

/-- The destination of a packet whose transmission begins in `before`: the
service of the peer is looked up in the table of that moment, its targets are
sampled with a random value of that moment, and the packet goes to one of
them. -/
def Resolved (env : SalEnv) (before : SalHost) (p : WirePacket) : Prop :=
  ∃ se iter earlier target,
    serviceFind before.table before.sk.peerSrvid.toList serviceIdMaxPrefixBits = .ok (some se) ∧
    serviceIterInit se env.mode (env.random (before.tick + 1)) = (true, iter) ∧
    earlier ++ [target] <+: iter.targets ∧
    p.daddr = targetDaddr (aimed before.sk.inetDaddr earlier) target

/-- Between `start` and the time when `out` was sent, the packet is sent by the
call of `serval_sal_transmit_skb` that begins in `before`. -/
structure SentBy (env : SalEnv) (start : SalHost) (out : List WirePacket) (before : SalHost)
    (p : WirePacket) : Prop where
  table : before.table = start.table
  peerSrvid : before.sk.peerSrvid = start.sk.peerSrvid
  tick : start.tick ≤ before.tick
  since : start.out <+: before.out
  call : ∃ skb useCopy err after sent,
    servalSalTransmitSkb env before skb useCopy = .ok (err, after) ∧
      after.out = before.out ++ sent ∧ p ∈ sent ∧ after.out <+: out

/-- A host on the way from `start`: the same flow, the same table, and what
was sent since. -/
structure Flows (env : SalEnv) (answer : WirePacket → Prop) (start host : SalHost) : Prop where
  state : flowing host.sk.skState = true
  peerSrvid : host.sk.peerSrvid = start.sk.peerSrvid
  table : host.table = start.table
  tick : start.tick ≤ host.tick
  out :
    ∃ packets, host.out = start.out ++ packets ∧
      ∀ p ∈ packets, (∃ before, SentBy env start host.out before p) ∨ answer p

section

variable {env : SalEnv} {answer : WirePacket → Prop} {start host host' : SalHost}

private theorem SentBy.mono {out out' : List WirePacket} {before : SalHost} {p : WirePacket}
    (sent : SentBy env start out before p) (more : out <+: out') :
    SentBy env start out' before p := by
  obtain ⟨skb, useCopy, err, after, packets, run, form, inside, upto⟩ := sent.call
  exact { sent with
    call := ⟨skb, useCopy, err, after, packets, run, form, inside, upto.trans more⟩ }

private theorem SentBy.resolved {out : List WirePacket} {before : SalHost} {p : WirePacket}
    (sent : SentBy env start out before p) : Resolved env before p := by
  obtain ⟨skb, useCopy, err, after, packets, run, form, inside, -⟩ := sent.call
  obtain ⟨_, _, packets', _, rfl, each, -⟩ := servalSalTransmitSkb_sendsAt run
  obtain rfl : packets' = packets := List.append_cancel_left form
  obtain ⟨se, iter, found, sampled, earlier, target, met, sent⟩ := each p inside
  exact ⟨se, iter, earlier, target, found, sampled, met, sent.daddr⟩

namespace Flows

private theorem refl (state : flowing start.sk.skState = true) :
    Flows env answer start start :=
  ⟨state, rfl, rfl, Nat.le_refl start.tick, [], by rw [List.append_nil], by simp⟩

private theorem sends {sent : WirePacket → Prop} (flows : Flows env answer start host)
    (each : ∀ packets, host'.out = host.out ++ packets → ∀ p ∈ packets, sent p →
      (∃ before, SentBy env start host'.out before p) ∨ answer p)
    (run : Sends sent host host') : Flows env answer start host' := by
  obtain ⟨saddr, daddr, packets, tick, rfl, all, later⟩ := run
  obtain ⟨earlier, form, old⟩ := flows.out
  refine ⟨flows.state, flows.peerSrvid, flows.table, Nat.le_trans flows.tick later,
    earlier ++ packets, ?_, ?_⟩
  · rw [← List.append_assoc, ← form]
    rfl
  · intro p inside
    rcases List.mem_append.mp inside with before | after
    · exact (old p before).imp_left fun ⟨start, sent⟩ =>
        ⟨start, sent.mono (List.prefix_append _ packets)⟩
    · exact each packets rfl p after (all p after)

theorem transmits {skb : CtrlSkb} {useCopy : Bool} {err : Int} (flows : Flows env answer start host)
    (run : servalSalTransmitSkb env host skb useCopy = .ok (err, host')) :
    Flows env answer start host' := by
  obtain ⟨earlier, form, -⟩ := flows.out
  refine flows.sends (fun packets sent p inside _ => .inl ⟨host, flows.table, flows.peerSrvid,
    flows.tick, ⟨earlier, form.symm⟩, ?_⟩) (servalSalTransmitSkb_sendsAt run)
  exact ⟨skb, useCopy, err, host', packets, run, sent, inside, List.prefix_rfl⟩

private theorem withSk {sk : ServalSock} (flows : Flows env answer start host)
    (state : flowing sk.skState = true)
    (same : sk.peerSrvid = host.sk.peerSrvid) :
    Flows env answer start (host.withSk sk) :=
  ⟨state, same.trans flows.peerSrvid, flows.table, flows.tick, flows.out⟩

private theorem pushed {skb : CtrlSkb} {err : Int} (flows : Flows env answer start host)
    (run : servalSalQueueAndPush env host skb = .ok (err, host')) :
    Flows env answer start host' := by
  have queued : Flows env answer start (host.withSk (enqueue host.sk skb)) :=
    flows.withSk flows.state rfl
  rw [servalSalQueueAndPush, servalSalWriteXmit] at run
  split at run
  · cases run
    exact queued
  split at run
  · obtain ⟨⟨err', middle⟩, sent, run⟩ := of_bind run
    have flowed := queued.transmits sent
    dsimp only at run
    split at run
    · cases run
      exact flowed
    · cases run
      exact flowed.withSk flowed.state rfl
  · cases run
    exact queued

private theorem done (flows : Flows env answer start host) (run : servalSalDone host = .ok host') :
    Flows env answer start host' := by
  obtain ⟨_, _, _, _, table, rfl, same, -⟩ := servalSalDone_spec run
  have other {state : SalState} (out : flowing state = false) : host.sk.skState ≠ state := by
    rintro rfl
    cases flows.state.symm.trans out
  obtain rfl : table = host.table := same (other rfl) (other rfl)
  exact flows.withSk rfl rfl

end Flows

theorem Moves.flowing {state state' : SalState} (moves : Moves state state') :
    flowing state' = true := by
  cases moves <;> rfl

/-- Once the handshake is over, no packet takes the socket back to it, and
none changes the service that it talks to. -/
theorem Received.flowing {skb : RcvSkb} {origin sk sk' : ServalSock}
    (started : flowing origin.skState = true)
    (state : flowing sk.skState = true)
    (change : Received env skb origin sk sk') :
    flowing sk'.skState = true ∧ sk'.peerSrvid = sk.peerSrvid := by
  cases change with
  | responded request | connected request =>
    rw [request] at started
    cases started
  | saved respond | established respond =>
    rw [respond] at started
    cases started
  | closewait => exact ⟨rfl, rfl⟩
  | moves moves => exact ⟨moves.flowing, rfl⟩
  | _ => exact ⟨state, rfl⟩

private theorem Called.flowing {sk sk' : ServalSock} (state : flowing sk.skState = true)
    (change : Called sk sk') :
    flowing sk'.skState = true ∧ sk'.peerSrvid = sk.peerSrvid := by
  cases change with
  | request srvid init =>
    rw [init] at state
    cases state
  | closed | finwait1 | lastack => exact ⟨rfl, rfl⟩
  | _ => exact ⟨state, rfl⟩

def SockEvent.answers (env : SalEnv) (event : SockEvent) (p : WirePacket) :
    Prop :=
  ∃ skb, event = .receive skb ∧ IsReset env skb p

private theorem Acts.flows {means : Means} {n : Nat} (state : flowing host.sk.skState = true)
    (answers : ∀ p, means.answer p → answer p)
    (changes : ∀ {sk sk' : ServalSock}, Serval.flowing sk.skState = true → means.change sk sk' →
      Serval.flowing sk'.skState = true ∧ sk'.peerSrvid = sk.peerSrvid)
    (pushes : ∀ {sk sk' : ServalSock} {skb : CtrlSkb}, means.push sk sk' skb →
      sk'.skState = sk.skState ∧ sk'.peerSrvid = sk.peerSrvid)
    (acts : Acts env means n host host') : Flows env answer host host' := by
  induction acts with
  | refl => exact .refl state
  | send _ _ sent ih => exact (ih state).transmits sent
  | bump _ ih => exact (ih state).sends (fun _ _ _ _ one => .inr one) .bump
  | answer _ sends ih =>
    exact (ih state).sends (fun _ _ p _ one => .inr (answers p one)) sends
  | done _ ended ih => exact (ih state).done ended
  | change _ changed ih =>
    have flows := ih state
    obtain ⟨still, same⟩ := changes flows.state changed
    exact flows.withSk still same
  | push _ pushed queued ih =>
    have flows := ih state
    obtain ⟨still, same⟩ := pushes pushed
    exact (flows.withSk (by rw [still]; exact flows.state) same).pushed queued
  | skip _ _ ih =>
    have flows := ih state
    exact flows.withSk flows.state rfl

theorem SockEvent.flows {event : SockEvent} {n : Nat} (state : flowing host.sk.skState = true)
    (acts : Acts env (event.means env host.sk) n host host') :
    Flows env (event.answers env) host host' := by
  refine acts.flows state ?answers ?changes ?pushes
  case answers =>
    intro p one
    cases event with
    | receive skb => exact ⟨skb, rfl, one⟩
    | _ => cases one
  case changes =>
    intro sk sk' still changed
    cases event with
    | receive skb => exact Received.flowing state still changed
    | _ => exact Called.flowing still changed
  case pushes =>
    intro sk sk' skb pushes
    cases event with
    | receive skb => cases pushes <;> exact ⟨rfl, rfl⟩
    | _ => cases pushes <;> exact ⟨rfl, rfl⟩

theorem flowing_notListen {state : SalState} (here : flowing state = true) : state ≠ .listen := by
  rintro rfl
  cases here

private theorem sockStep_resolved {event : SockEvent} (state : flowing host.sk.skState = true)
    (run : sockStep env host event = .ok host') :
    flowing host'.sk.skState = true ∧ host'.sk.peerSrvid = host.sk.peerSrvid ∧
      ∃ packets, host'.out = host.out ++ packets ∧
        ∀ p ∈ packets, (∃ before, SentBy env host host'.out before p) ∨ event.answers env p := by
  rcases sockStep_does (flowing_notListen state) run with
    ⟨n, -, acts⟩ | ⟨table, rfl⟩
  · have flows := SockEvent.flows state acts
    exact ⟨flows.state, flows.peerSrvid, flows.out⟩
  · exact ⟨state, rfl, [], by rw [List.append_nil], by simp⟩

private theorem sockRun_flowing {events : List SockEvent} (state : flowing host.sk.skState = true)
    (run : runAll (sockStep env) host events = .ok host') :
    flowing host'.sk.skState = true ∧ host'.sk.peerSrvid = host.sk.peerSrvid := by
  induction events generalizing host with
  | nil =>
    cases run
    exact ⟨state, rfl⟩
  | cons event rest ih =>
    obtain ⟨middle, step, run⟩ := of_bind run
    obtain ⟨still, same, -⟩ := sockStep_resolved state step
    obtain ⟨last, kept⟩ := ih still run
    exact ⟨last, kept.trans same⟩

/-- In every run of a socket behind its handshake, whatever becomes of the
table, each packet but a reset in answer to another one is sent by a
transmission of that step, and goes to a target that the peer's service has at
the beginning of this transmission. -/
theorem sockRun_resolved {events : List SockEvent} {event : SockEvent} {middle : SalHost}
    (state : flowing host.sk.skState = true)
    (run : runAll (sockStep env) host events = .ok middle)
    (step : sockStep env middle event = .ok host') :
    middle.sk.peerSrvid = host.sk.peerSrvid ∧
      ∃ packets, host'.out = middle.out ++ packets ∧
        ∀ p ∈ packets,
          (∃ before, SentBy env middle host'.out before p ∧ Resolved env before p) ∨
            ∃ skb, event = .receive skb ∧ IsReset env skb p := by
  obtain ⟨still, same⟩ := sockRun_flowing state run
  obtain ⟨-, -, packets, form, each⟩ := sockStep_resolved still step
  refine ⟨same, packets, form, fun p inside => (each p inside).imp_left ?_⟩
  rintro ⟨before, sent⟩
  exact ⟨before, sent, sent.resolved⟩

end

def plainRequest : SalHost := plainConnection.withSk { plainSock with skState := .request }

def synackSkb : RcvSkb :=
  { plainSkb { plainControl 7 10 (Vector.replicate 8 6) with
      syn := true, ack := true } with
    saddr := ipv4 10 0 0 9 }

def dataReply : Reply := ⟨[[1, 2, 3]], false, [], false, 0⟩

theorem sockRun_resolved_data : ∃ middle host',
      runAll (sockStep plainEnv) plainConnection [.migrate 2] = .ok middle ∧
        sockStep plainEnv middle (.transport dataReply) = .ok host' ∧
        host'.out.length = middle.out.length + 1 ∧
        middle.sk.peerSrvid = plainConnection.sk.peerSrvid ∧
        ∃ packets, host'.out = middle.out ++ packets ∧
          ∀ p ∈ packets,
            (∃ before, SentBy plainEnv middle host'.out before p ∧ Resolved plainEnv before p) ∨
              ∃ skb, SockEvent.transport dataReply = .receive skb ∧ IsReset plainEnv skb p := by
  obtain ⟨middle, run, passed⟩ := @exists_of_leaves _
      (runAll (sockStep plainEnv) plainConnection [.migrate 2])
      (fun middle =>
        leaves (sockStep plainEnv middle (.transport dataReply))
          fun host' => host'.out.length = middle.out.length + 1)
      (by decide +kernel)
  obtain ⟨host', step, one⟩ := exists_of_leaves passed
  exact ⟨middle, host', run, step, of_decide_eq_true one, sockRun_resolved rfl run step⟩

/-- The peer answers from 10.0.0.9, and this is noted; the data goes where the
service table says. -/
theorem handshake_address_unused : (saveResponse plainRequest.sk synackSkb).inetDaddr =
        ⟨#[10, 0, 0, 9], rfl⟩ ∧
      ∃ connected host', sockStep plainEnv plainRequest (.receive synackSkb) = .ok connected ∧
          connected.sk.skState = .connected ∧
          sockStep plainEnv connected (.transport dataReply) = .ok host' ∧
          ((host'.out.drop connected.out.length).map (·.daddr)) = [⟨#[10, 0, 0, 2], rfl⟩] := by
  refine ⟨rfl, ?_⟩
  obtain ⟨connected, run, passed⟩ :=
    @exists_of_leaves _ (sockStep plainEnv plainRequest (.receive synackSkb))
      (fun connected => connected.sk.skState = .connected &&
        leaves (sockStep plainEnv connected (.transport dataReply))
          fun host' =>
            ((host'.out.drop connected.out.length).map (·.daddr)) = [⟨#[10, 0, 0, 2], rfl⟩])
      (by decide +kernel)
  rw [Bool.and_eq_true] at passed
  obtain ⟨host', step, sent⟩ := exists_of_leaves passed.2
  simp only [decide_eq_true_eq] at sent
  exact ⟨connected, host', run, of_decide_eq_true passed.1, step, sent⟩

end Serval
