import Serval.Sal.Calls
import Serval.Sal.CtrlQueue

/-!
# The sequence numbers of a socket

The next number to send, the oldest that is not acknowledged, and the next
number to receive. They only move forward, as long as no acknowledgement
passes a packet that waits unsent: when such a packet is sent at last, the
oldest number is set back to that of the packet behind it.
-/

namespace Serval

open Serval.Support

private def ServalSock.unsentNos (sk : ServalSock) : List UInt32 := sk.ctrlUnsent.map (·.cb.verno)

private def Opened (sk : ServalSock) : Prop := sk.skState ≠ .init ∧ sk.skState ≠ .listen

structure Quiet (sk sk' : ServalSock) : Prop where
  sndUna : sk'.sndUna = sk.sndUna
  sndNxt : sk'.sndNxt = sk.sndNxt
  unsentNos : sk'.unsentNos.Sublist sk.unsentNos
  opened : Opened sk → Opened sk'

/-- The numbers of an opened socket, counted from `base` on: first the oldest
that is not acknowledged, then those of the packets that wait, then the
next. -/
structure Ordered (base : UInt32) (nxt : Nat) (sk : ServalSock) : Prop where
  opened : Opened sk
  sndNxt : (sk.sndNxt - base).toNat = nxt
  sndUna : (sk.sndUna - base).toNat ≤ nxt
  waits : ∀ verno ∈ sk.unsentNos, (sk.sndUna - base).toNat ≤ (verno - base).toNat ∧
      (verno - base).toNat ≤ nxt
  sorted : sk.unsentNos.Pairwise fun first second =>
    (first - base).toNat ≤ (second - base).toNat

section

variable {env : SalEnv} {base : UInt32} {nxt n : Nat} {sk sk' : ServalSock} {host host' : SalHost}

private theorem Quiet.refl : Quiet sk sk := ⟨rfl, rfl, .refl _, id⟩

private theorem Quiet.trans {sk'' : ServalSock} (first : Quiet sk sk') (second : Quiet sk' sk'') :
    Quiet sk sk'' :=
  ⟨second.sndUna.trans first.sndUna, second.sndNxt.trans first.sndNxt,
    second.unsentNos.trans first.unsentNos, second.opened ∘ first.opened⟩

private theorem SameSending.quiet (same : SameSending sk sk') (opened : Opened sk → Opened sk') :
    Quiet sk sk' := by
  refine ⟨same.sndUna, same.sndNxt, ?_, opened⟩
  rw [ServalSock.unsentNos, ServalSock.unsentNos, same.ctrlUnsent]

private theorem Sends.quiet {sent : WirePacket → Prop} (sends : Sends sent host host') :
    Quiet host.sk host'.sk := by
  obtain ⟨_, _, _, _, rfl, -⟩ := sends
  exact ⟨rfl, rfl, .refl _, id⟩

theorem servalSalDone_quiet (run : servalSalDone host = .ok host') : Quiet host.sk host'.sk := by
  obtain ⟨_, _, _, _, _, rfl, -, ⟨rfl, rfl⟩ | ⟨-, rfl, rfl⟩⟩ := servalSalDone_spec run
  · exact ⟨rfl, rfl, .refl _, fun _ => ⟨nofun, nofun⟩⟩
  · exact ⟨rfl, rfl, List.nil_sublist _, fun _ => ⟨nofun, nofun⟩⟩

private theorem Ordered.quiet (ordered : Ordered base nxt sk) (quiet : Quiet sk sk') :
    Ordered base nxt sk' := by
  refine ⟨quiet.opened ordered.opened, ?_, ?_, ?_, ordered.sorted.sublist quiet.unsentNos⟩
  · rw [quiet.sndNxt]
    exact ordered.sndNxt
  · rw [quiet.sndUna]
    exact ordered.sndUna
  · intro verno waits
    rw [quiet.sndUna]
    exact ordered.waits verno (quiet.unsentNos.mem waits)

structure NextNumber (sk sk' : ServalSock) (skb : CtrlSkb) : Prop where
  verno : skb.cb.verno = sk.sndNxt
  sndNxt : sk'.sndNxt = sk.sndNxt + 1
  sndUna : sk'.sndUna = sk.sndUna
  ctrlUnsent : sk'.ctrlUnsent = sk.ctrlUnsent
  skState : sk'.skState = sk.skState

private theorem Ordered.useVerno (ordered : Ordered base nxt sk) (room : nxt + 1 < 2 ^ 32) :
    Ordered base (nxt + 1) sk.useVerno := by
  have next : (sk.sndNxt + 1 - base).toNat = nxt + 1 := by
    rw [toNat_succ_sub, ordered.sndNxt]
    rw [ordered.sndNxt]
    omega
  refine ⟨ordered.opened, next, ordered.sndUna.trans (Nat.le_succ nxt), ?_, ordered.sorted⟩
  intro verno waits
  obtain ⟨low, high⟩ := ordered.waits verno waits
  exact ⟨low, high.trans (Nat.le_succ nxt)⟩

private theorem servalSalWriteXmit_quiet
    {err : Int} (run : servalSalWriteXmit env host = .ok (err, host')) :
    Quiet host.sk host'.sk := by
  obtain ⟨middle, ⟨_, _, _, _, rfl, -⟩, rfl | ⟨first, rest, head,
    rfl⟩⟩ := servalSalWriteXmit_spec run
  · exact ⟨rfl, rfl, .refl _, id⟩
  · refine ⟨rfl, rfl, ?_, id⟩
    rw [ServalSock.unsentNos, ServalSock.unsentNos, head]
    exact (List.sublist_cons_self first rest).map _

/-- The oldest number after a push: the new one, that of the first packet that
waits, or the same as before. -/
theorem Ordered.enqueue {skb : CtrlSkb} (ordered : Ordered base nxt sk)
    (room : nxt + 1 < 2 ^ 32) (next : NextNumber sk sk' skb) :
    Ordered base (nxt + 1) (enqueue sk' skb) ∧
      (sk.sndUna - base).toNat ≤ ((Serval.enqueue sk' skb).sndUna - base).toNat := by
  have number : (skb.cb.verno - base).toNat = nxt := by rw [next.verno, ordered.sndNxt]
  have sndNxt : ((Serval.enqueue sk' skb).sndNxt - base).toNat = nxt + 1 := by
    have moved := (ordered.useVerno room).sndNxt
    rw [show (Serval.enqueue sk' skb).sndNxt = sk.sndNxt + 1 from next.sndNxt]
    exact moved
  have unsent : (Serval.enqueue sk' skb).unsentNos = sk.unsentNos ++ [skb.cb.verno] := by
    rw [ServalSock.unsentNos, enqueue_ctrlUnsent, List.map_append, next.ctrlUnsent]
    rfl
  have sorted : (sk.unsentNos ++ [skb.cb.verno]).Pairwise fun first second =>
        (first - base).toNat ≤ (second - base).toNat := by
    refine List.pairwise_append.mpr ⟨ordered.sorted, by simp, ?_⟩
    intro verno waits other isLast
    rw [List.mem_singleton.mp isLast, number]
    exact (ordered.waits verno waits).2
  -- The oldest number moves to one of those that wait, or stays.
  have una : (sk.sndUna - base).toNat ≤ ((Serval.enqueue sk' skb).sndUna - base).toNat ∧
        ∀ verno ∈ sk.unsentNos ++ [skb.cb.verno], ((Serval.enqueue sk' skb).sndUna - base).toNat ≤
            (verno - base).toNat := by
    rw [enqueue_sndUna, next.ctrlUnsent, next.sndUna]
    cases queue : sk.ctrlUnsent with
    | nil =>
      have none : sk.unsentNos = [] := by
        rw [ServalSock.unsentNos, queue]
        rfl
      rw [none]
      refine ⟨?_, ?_⟩
      · show _ ≤ (skb.cb.verno - base).toNat
        rw [number]
        exact ordered.sndUna
      · intro verno isLast
        rw [List.nil_append, List.mem_singleton] at isLast
        rw [isLast]
        exact Nat.le_refl _
    | cons first rest =>
      have unsentNos : sk.unsentNos = first.cb.verno :: rest.map (·.cb.verno) := by
        rw [ServalSock.unsentNos, queue]
        rfl
      have member : first.cb.verno ∈ sk.unsentNos := by
        rw [unsentNos]
        exact List.mem_cons_self
      obtain ⟨low, high⟩ := ordered.waits _ member
      dsimp only [List.head?_cons]
      split
      · refine ⟨Nat.le_refl _, ?_⟩
        intro verno inside
        rcases List.mem_append.mp inside with waits | isLast
        · exact (ordered.waits verno waits).1
        · rw [List.mem_singleton.mp isLast, number]
          exact ordered.sndUna
      · refine ⟨low, ?_⟩
        intro verno inside
        rw [unsentNos] at inside sorted
        rcases List.mem_cons.mp inside with rfl | inside
        · exact Nat.le_refl _
        · exact (List.pairwise_cons.mp sorted).1 verno inside
  refine ⟨⟨?_, sndNxt, ?_, ?_, ?_⟩, una.1⟩
  · show Opened sk'
    rw [Opened, next.skState]
    exact ordered.opened
  · have last := una.2 skb.cb.verno (by simp)
    omega
  · intro verno waits
    rw [unsent] at waits
    refine ⟨una.2 verno waits, ?_⟩
    rcases List.mem_append.mp waits with waits | isLast
    · exact (ordered.waits verno waits).2.trans (Nat.le_succ nxt)
    · rw [List.mem_singleton.mp isLast, number]
      exact Nat.le_succ nxt
  · rw [unsent]
    exact sorted

private theorem Ordered.pushed {skb : CtrlSkb} {err : Int} (ordered : Ordered base nxt host.sk)
    (room : nxt + 1 < 2 ^ 32) (next : NextNumber host.sk sk' skb)
    (run : servalSalQueueAndPush env (host.withSk sk') skb = .ok (err, host')) :
    Ordered base (nxt + 1) host'.sk ∧
      (host.sk.sndUna - base).toNat ≤ (host'.sk.sndUna - base).toNat := by
  obtain ⟨queued, forward⟩ := ordered.enqueue room next
  have quiet := servalSalWriteXmit_quiet run
  refine ⟨queued.quiet quiet, ?_⟩
  rw [quiet.sndUna]
  exact forward

structure Calm (means : Means) : Prop where
  change : ∀ {sk sk' : ServalSock}, means.change sk sk' → Opened sk → Quiet sk sk'
  push : ∀ {sk sk' : ServalSock} {skb : CtrlSkb}, means.push sk sk' skb → NextNumber sk sk' skb

/-- The numbers are in order, and the oldest is not before `una`. -/
structure Forward (base : UInt32) (una nxt : Nat) (sk : ServalSock) :
    Prop extends Ordered base nxt sk where
  forward : una ≤ (sk.sndUna - base).toNat

variable {una : Nat}

private theorem Forward.quiet (before : Forward base una nxt sk)
    (quiet : Quiet sk sk') : Forward base una nxt sk' := by
  refine ⟨before.toOrdered.quiet quiet, ?_⟩
  rw [quiet.sndUna]
  exact before.forward

private theorem Acts.forward {means : Means} (calm : Calm means)
    (start : Forward base una nxt host.sk) (room : nxt + n < 2 ^ 32)
    (acts : Acts env means n host host') :
    Forward base una (nxt + n) host'.sk := by
  have kept := @Acts.keeps env means n host host' (fun n middle => nxt + n < 2 ^ 32 →
        Forward base una (nxt + n) middle.sk)
      ?send ?answer ?done ?change ?push ?skip (fun _ => start) acts
  · exact kept room
  case send =>
    exact fun before sends room => (before room).quiet sends.quiet
  case answer =>
    exact fun before sends room => (before room).quiet sends.quiet
  case done =>
    exact fun before ended room => (before room).quiet (servalSalDone_quiet ended)
  case change =>
    intro n middle sk before changed room
    exact (before room).quiet (calm.change changed (before room).opened)
  case push =>
    intro n middle after sk skb err before pushes pushed room
    have before := before (Nat.lt_of_succ_lt room)
    obtain ⟨later, further⟩ := before.toOrdered.pushed room (calm.push pushes) pushed
    exact ⟨later, before.forward.trans further⟩
  case skip =>
    intro n middle before _ room
    have before := before (Nat.lt_of_succ_lt room)
    exact ⟨before.toOrdered.useVerno room, before.forward⟩

private theorem Acts.quiet {means : Means} (calm : Calm means) (opened : Opened host.sk)
    (acts : Acts env means 0 host host') : Quiet host.sk host'.sk := by
  have kept := @Acts.keeps env means 0 host host' (fun n middle => n = 0 → Quiet host.sk middle.sk)
      ?send ?answer ?done ?change ?push ?skip (fun _ => .refl) acts
  · exact kept rfl
  case send =>
    exact fun before sends none => (before none).trans sends.quiet
  case answer =>
    exact fun before sends none => (before none).trans sends.quiet
  case done =>
    exact fun before ended none => (before none).trans (servalSalDone_quiet ended)
  case change =>
    intro n middle sk before changed none
    have quiet := before none
    exact quiet.trans (calm.change changed (quiet.opened opened))
  case push =>
    intro n middle after sk skb err _ _ _ none
    cases none
  case skip =>
    intro n middle _ _ none
    cases none

variable {skb : RcvSkb} {start : ServalSock}

private theorem Received.opened (change : Received env skb start sk sk')
    (opened : Opened sk) : Opened sk' := by
  cases change with
  | connected | established | closewait =>
    exact ⟨nofun, nofun⟩
  | @moves state moves timer =>
    show state ≠ .init ∧ state ≠ .listen
    generalize sk.skState = here at moves
    cases moves <;> decide
  | _ => exact opened

private theorem calm_receiving_still (skb : RcvSkb) (start : ServalSock) :
    Calm (receiving env skb start).still where
  change changed _ := changed.2.quiet changed.1.opened
  push pushes := by
    cases pushes with
    | rsynack | fin => exact ⟨rfl, rfl, rfl, rfl, rfl⟩

private theorem calm_handling_still (skb : RcvSkb) (start : ServalSock) :
    Calm (handling env skb start).still where
  change changed _ := changed.2.quiet changed.1.received.opened
  push pushes := by
    cases pushes with
    | fin => exact ⟨rfl, rfl, rfl, rfl, rfl⟩

private theorem calm_calling (opened : Opened start) : Calm (calling start) where
  change {sk sk'} changed opened := by
    cases changed with
    | request srvid init => exact absurd init opened.1
    | closed | finwait1 | lastack =>
      exact ⟨rfl, rfl, .refl _, fun _ => ⟨nofun, nofun⟩⟩
    | destroyed => exact ⟨rfl, rfl, List.nil_sublist _, id⟩
    | @markUnsent skb rest first =>
      refine ⟨rfl, rfl, ?_, id⟩
      rw [ServalSock.unsentNos, ServalSock.unsentNos, first]
      exact .refl _
    | _ => exact ⟨rfl, rfl, .refl _, id⟩
  push pushes := by
    cases pushes with
    | syn data init => exact absurd init opened.1
    | fin | rsyn => exact ⟨rfl, rfl, rfl, rfl, rfl⟩

/-- The acknowledgement, if it is taken, passes no packet that waits
unsent. -/
def PassesNone (sk : ServalSock) (hdr : SalHeader) : Prop :=
  acceptsAck sk hdr = true →
    ∀ verno ∈ sk.unsentNos, before verno hdr.ackno = false

variable {hdr : SalHeader}

private theorem Quiet.acceptsAck (quiet : Quiet sk sk') :
    acceptsAck sk' hdr = Serval.acceptsAck sk hdr := by
  rw [Serval.acceptsAck, Serval.acceptsAck, quiet.sndUna, quiet.sndNxt]

private theorem PassesNone.quiet (passes : PassesNone sk hdr) (quiet : Quiet sk sk') :
    PassesNone sk' hdr := by
  intro accepts verno waits
  rw [quiet.acceptsAck] at accepts
  exact passes accepts verno (quiet.unsentNos.mem waits)

private theorem Ordered.acked (ordered : Ordered base nxt sk) (near : nxt < 2 ^ 31)
    (accepts : acceptsAck sk hdr = true) (passes : PassesNone sk hdr) :
    Ordered base nxt (ackedSk sk hdr.ackno) ∧
      (sk.sndUna - base).toNat ≤ (hdr.ackno - base).toNat := by
  have passed := passes accepts
  simp only [acceptsAck, Bool.and_eq_true, Bool.not_eq_true'] at accepts
  obtain ⟨⟨-, notOld⟩, notNew⟩ := accepts
  have order : (sk.sndUna - base).toNat ≤ (sk.sndNxt - base).toNat := by
    rw [ordered.sndNxt]
    exact ordered.sndUna
  obtain ⟨low, high⟩ := sub_window order notOld notNew
  rw [ordered.sndNxt] at high
  refine ⟨⟨ordered.opened, ordered.sndNxt, high, ?_, ordered.sorted⟩, low⟩
  intro verno waits
  have below := (ordered.waits verno waits).2
  have atLeast : (hdr.ackno - base).toNat ≤ (verno - base).toNat :=
    le_of_not_before (passed verno waits) (by omega) (by omega)
  exact ⟨atLeast, below⟩

private theorem servalSalAckProcess_forward {acked : Bool} (start : Forward base una nxt host.sk)
    (near : acceptsAck host.sk hdr = true → nxt < 2 ^ 31)
    (passes : PassesNone host.sk hdr)
    (run : servalSalAckProcess env host hdr = .ok (acked, host')) :
    Forward base una nxt host'.sk := by
  obtain ⟨accepts, ⟨-, rfl⟩ | ⟨rfl, outcome⟩⟩ := servalSalAckProcess_spec run
  · exact start
  obtain ⟨ordered, further⟩ := start.toOrdered.acked (near accepts.symm) accepts.symm passes
  have taken : Forward base una nxt (ackedSk host.sk hdr.ackno) :=
    ⟨ordered, start.forward.trans further⟩
  rcases outcome with rfl | sends
  · exact taken
  · have migrated : Quiet (ackedSk host.sk hdr.ackno) (takeMigDaddr (ackedSk host.sk hdr.ackno)) :=
      ⟨rfl, rfl, .refl _, id⟩
    exact (taken.quiet migrated).quiet sends.quiet

private theorem AcksFirst.forward (before : Forward base una nxt host.sk) (room : nxt + 1 < 2 ^ 32)
    (near : acceptsAck host.sk skb.hdr = true → nxt < 2 ^ 31)
    (passes : PassesNone host.sk skb.hdr)
    (handled : AcksFirst env skb start host host') :
    ∃ n ≤ 1, Forward base una (nxt + n) host'.sk := by
  have calm := @calm_handling_still env skb start
  cases handled with
  | noAck reacked does =>
    obtain ⟨n, few, acts⟩ := does
    exact ⟨n, few, acts.forward calm (before.quiet (reackIf_sends reacked).quiet) (by omega)⟩
  | @ack _ _ first _ reacked processed does =>
    obtain ⟨n, few, acts⟩ := does
    have quiet := (reackIf_sends reacked).quiet
    have near : acceptsAck first.sk skb.hdr = true → nxt < 2 ^ 31 := by
      rw [quiet.acceptsAck]
      exact near
    have acked := servalSalAckProcess_forward (before.quiet quiet) near
        (passes.quiet quiet) processed
    exact ⟨n, few, acts.forward calm acked (by omega)⟩

/-- A request for a migration, which is answered with a new number, carries no
acknowledgement. -/
theorem rcvMigration_forward (before : Forward base una nxt host.sk)
    (room : nxt + 1 < 2 ^ 32) (passes : PassesNone host.sk skb.hdr)
    (run : rcvMigration env host skb = .ok host') :
    ∃ n ≤ 1, Forward base una (nxt + n) host'.sk ∧ PassesNone host'.sk skb.hdr ∧
      (acceptsAck host'.sk skb.hdr = true → n = 0) := by
  obtain ⟨⟨n, few, acts⟩, -⟩ := @rcvMigration_still _ _ host.sk _ _ run
  have calm := @calm_receiving_still env skb host.sk
  cases ack : skb.hdr.hasAck with
  | true =>
    rw [if_pos ack, Nat.le_zero] at few
    subst few
    have quiet := acts.quiet calm before.opened
    exact ⟨0, Nat.zero_le 1, before.quiet quiet, passes.quiet quiet, fun _ => rfl⟩
  | false =>
    rw [if_neg (by simp [ack])] at few
    have refused : acceptsAck host'.sk skb.hdr = false := by simp [acceptsAck, ack]
    refine ⟨n, few, acts.forward calm before (by omega), ?_, ?_⟩
    · simp [PassesNone, refused]
    · simp [refused]

private theorem servalSalStateProcess_forward (start : Forward base una nxt host.sk)
    (near : nxt < 2 ^ 31) (passes : PassesNone host.sk skb.hdr)
    (run : servalSalStateProcess env host skb = .ok host') :
    ∃ n ≤ 2, Forward base una (nxt + n) host'.sk := by
  rw [servalSalStateProcess, stateProcess] at run
  split at run
  · cases run
    exact ⟨0, Nat.zero_le 2, start⟩
  split at run
  · obtain ⟨n, none, acts⟩ := @servalSalRcvReset_does env (calling host.sk) _ _ run
    exact ⟨n, none.trans (Nat.zero_le 2), acts.forward (calm_calling start.opened) start (by omega)⟩
  obtain ⟨middle, migrated, run⟩ := of_bind run
  obtain ⟨n, few, first, passes, unused⟩ := rcvMigration_forward start (by omega) passes migrated
  have same := (@rcvMigration_still _ _ host.sk _ _ migrated).2
  have handled := stateSwitch_acksFirst start.opened.2 same.skState run
  have near : acceptsAck middle.sk skb.hdr = true → nxt + n < 2 ^ 31 := by
    intro accepts
    rw [unused accepts]
    exact near
  obtain ⟨m, few', second⟩ := handled.forward first (by omega) near passes
  refine ⟨n + m, by omega, ?_⟩
  rw [← Nat.add_assoc]
  exact second

def KeepsOrder (sk : ServalSock) : SockEvent → Prop
  | .receive skb => PassesNone sk skb.hdr
  | _ => True

private theorem sockStep_forward {event : SockEvent}
    (start : Forward base una nxt host.sk) (near : nxt < 2 ^ 31)
    (keeps : KeepsOrder host.sk event)
    (run : sockStep env host event = .ok host') :
    ∃ n ≤ 2, Forward base una (nxt + n) host'.sk := by
  have called (does : Does env (calling host.sk) 2 host host' ∨
        ∃ table, host' = { host with table }) :
      ∃ n ≤ 2, Forward base una (nxt + n) host'.sk := by
    rcases does with ⟨n, few, acts⟩ | ⟨table, rfl⟩
    · exact ⟨n, few, acts.forward (calm_calling start.opened) start (by omega)⟩
    · exact ⟨0, Nat.zero_le 2, start⟩
  cases event with
  | receive skb => exact servalSalStateProcess_forward start near keeps run
  | _ => exact called (sockStep_does start.opened.2 run)

/-! ## The next number to receive -/

/-- The next number to receive is as before, or it is behind the number of a
control packet that is not old. -/
def Expects (hdr : SalHeader) (next next' : UInt32) : Prop :=
  next' = next ∨ hdr.ctrlExt.isSome = true ∧ next' = hdr.verno + 1

theorem Received.rcvNxt {skb : RcvSkb} {start : ServalSock}
    (change : Received env skb start sk sk') :
    Expects skb.hdr sk.rcvNxt sk'.rcvNxt := by
  cases change with
  | expected rsyn | rsyn rsyn | fin rsyn =>
    exact .inr ⟨Option.isSome_of_any rsyn, rfl⟩
  | responded request synack =>
    rw [Bool.and_eq_true] at synack
    exact .inr ⟨Option.isSome_of_any synack.1, rfl⟩
  | _ => exact .inl rfl

private theorem Called.rcvNxt (change : Called sk sk') : sk'.rcvNxt = sk.rcvNxt := by
  cases change with
  | request =>
    rw [servalSockHash]
    split <;> rfl
  | _ => rfl

theorem Acts.rcvNxt {means : Means} {expects : UInt32 → Prop}
    (change : ∀ {sk sk' : ServalSock}, means.change sk sk' → expects sk.rcvNxt → expects sk'.rcvNxt)
    (push : ∀ {sk sk' : ServalSock} {skb : CtrlSkb}, means.push sk sk' skb → sk'.rcvNxt = sk.rcvNxt)
    (start : expects host.sk.rcvNxt) (acts : Acts env means n host host') :
    expects host'.sk.rcvNxt := by
  refine @Acts.keeps_sk _ _ _ _ _ (fun sk => expects sk.rcvNxt) ?_ change ?_ start acts
  · rintro sk sk' ⟨_, _, _, _, _, _, _, _, _, _, _, _, -, rfl⟩ kept
    exact kept
  · intro sk sk' skb pushes kept
    rw [push pushes]
    exact kept

private theorem servalSalStateProcess_rcvNxt (opened : Opened host.sk)
    (run : servalSalStateProcess env host skb = .ok host') :
    Expects skb.hdr host.sk.rcvNxt host'.sk.rcvNxt := by
  obtain ⟨n, -, acts⟩ := stateProcess_does opened.2 run
  refine @Acts.rcvNxt env n host host' (receiving env skb host.sk)
    (Expects skb.hdr host.sk.rcvNxt) ?_ ?_ (.inl rfl) acts
  · intro sk sk' changed before
    rcases Received.rcvNxt changed with same | later
    · rw [same]
      exact before
    · exact .inr later
  · intro sk sk' skb pushes
    cases pushes with
    | rsynack | fin => rfl

def StepsForward (next next' : UInt32) : Prop :=
  next' = next ∨ 1 ≤ (next' - next).toNat ∧ (next' - next).toNat ≤ 2 ^ 31

private theorem servalSalStateProcess_stepsForward (opened : Opened host.sk)
    (left : host.sk.skState ≠ .request)
    (run : servalSalStateProcess env host skb = .ok host') :
    StepsForward host.sk.rcvNxt host'.sk.rcvNxt := by
  rcases servalSalStateProcess_rcvNxt opened run with same | ⟨control, next⟩
  · exact .inl same
  by_cases valid : hasValidVerno skb.hdr.verno host.sk = true
  · right
    have notOld : before skb.hdr.verno host.sk.rcvNxt = false := by
      simpa [hasValidVerno, opened.2, left] using valid
    rw [next]
    exact succ_sub_of_not_before notOld
  left
  have old : hasValidVerno skb.hdr.verno host.sk = false := by simpa using valid
  rw [servalSalStateProcess, stateProcess, control, old] at run
  cases run
  rfl

private theorem sockStep_stepsForward {event : SockEvent} (opened : Opened host.sk)
    (left : host.sk.skState ≠ .request)
    (run : sockStep env host event = .ok host') :
    StepsForward host.sk.rcvNxt host'.sk.rcvNxt := by
  have called (does : Does env (calling host.sk) 2 host host' ∨
        ∃ table, host' = { host with table }) :
      StepsForward host.sk.rcvNxt host'.sk.rcvNxt := by
    left
    rcases does with ⟨n, -, acts⟩ | ⟨table, rfl⟩
    · refine @Acts.rcvNxt env n host host' (calling host.sk)
        (fun next => next = host.sk.rcvNxt) ?_ ?_ rfl acts
      · exact fun changed before => (Called.rcvNxt changed).trans before
      · intro sk sk' skb pushes
        cases pushes with
        | syn | fin | rsyn => rfl
    · rfl
  cases event with
  | receive skb => exact servalSalStateProcess_stepsForward opened left run
  | _ => exact called (sockStep_does opened.2 run)

end

structure SeqRun where
  host : SalHost
  sent : Nat

def seqStep (env : SalEnv) (s : SeqRun) (event : SockEvent) :
    Except Fault SeqRun := do
  let host ← sockStep env s.host event
  .ok ⟨host, s.sent + (host.sk.sndNxt - s.host.sk.sndNxt).toNat⟩

/-- No number goes back. -/
structure SeqAdvances (sk sk' : ServalSock) : Prop where
  sndUna : before sk'.sndUna sk.sndUna = false
  sndNxt : before sk'.sndNxt sk.sndNxt = false
  order : after sk'.sndUna sk'.sndNxt = false
  rcvNxt : StepsForward sk.rcvNxt sk'.rcvNxt

/-- Both ways to open a connection. -/
inductive Opens (env : SalEnv) : SalHost → Prop
  | connects {fresh host : SalHost} {srvid : Vector UInt8 32} {err : Int}
      (init : fresh.sk.skState = .init) (sndUna : fresh.sk.sndUna = 0)
      (sndNxt : fresh.sk.sndNxt = 0) (ctrlSent : fresh.sk.ctrlSent = [])
      (ctrlUnsent : fresh.sk.ctrlUnsent = [])
      (run : servalConnect env fresh srvid = .ok (err, host)) :
      Opens env host
  | responds {host : SalHost} (listener : ServalSock) (rsk : RequestSock)
      (made : host.sk = respondSock listener rsk) : Opens env host

section

variable {env : SalEnv} {host host' : SalHost} {sk : ServalSock} {err : Int}

private theorem servalSockHash_quiet (sk : ServalSock) : Quiet sk (servalSockHash sk) := by
  rw [servalSockHash]
  split
  · exact .refl
  · exact ⟨rfl, rfl, .refl _, id⟩

/-- When no packet waits, the numbers are counted from the oldest on. -/
theorem Ordered.of_none {base : UInt32} {nxt : Nat} (opened : Opened sk)
    (none : sk.ctrlUnsent = []) (una : sk.sndUna = base)
    (next : (sk.sndNxt - base).toNat = nxt) : Ordered base nxt sk := by
  have unsent : sk.unsentNos = [] := by
    rw [ServalSock.unsentNos, none]
    rfl
  refine ⟨opened, next, ?_, ?_, ?_⟩
  · rw [una, UInt32.sub_self]
    exact Nat.zero_le _
  · intro verno waits
    rw [unsent] at waits
    cases waits
  · rw [unsent]
    exact .nil

private theorem enqueue_ordered {skb : CtrlSkb} (opened : Opened sk) (none : sk.ctrlUnsent = [])
    (next : sk.sndNxt = skb.cb.verno + 1) :
    Ordered skb.cb.verno 1 (enqueue sk skb) := by
  -- The queue is empty, so that it does not matter which number was the oldest.
  let idle := { sk with sndUna := skb.cb.verno, sndNxt := skb.cb.verno }
  have ordered : Ordered skb.cb.verno 0 idle := .of_none opened none rfl (by simp [idle])
  have next : NextNumber idle { sk with sndUna := skb.cb.verno } skb := ⟨rfl, next, rfl, rfl, rfl⟩
  have first := (ordered.enqueue (by decide) next).1
  refine first.quiet ⟨?_, rfl, ?_, id⟩
  · rw [enqueue_sndUna, enqueue_sndUna, none]
    rfl
  · simp [ServalSock.unsentNos, enqueue_ctrlUnsent]

private theorem servalSalSendSyn_ordered {verno : UInt32} (opened : Opened host.sk)
    (same : host.sk.sndNxt = host.sk.sndUna)
    (none : host.sk.ctrlUnsent = [])
    (run : servalSalSendSyn env host verno = .ok (err, host')) :
    ∃ base, ∃ nxt ≤ 1, Ordered base nxt host'.sk := by
  have idle : Ordered host.sk.sndUna 0 host.sk := by
    apply Ordered.of_none opened none rfl
    rw [same, UInt32.sub_self]
    rfl
  rw [servalSalSendSyn] at run
  split at run
  · cases run
    exact ⟨_, 0, Nat.zero_le 1, idle⟩
  dsimp only at run
  split at run
  · cases run
    exact ⟨_, 0, Nat.zero_le 1, idle⟩
  have first : Ordered verno 1 (enqueue { host.sk with sndNxt := verno + 1 } (ctrlSkb svhSyn verno
            (env.transport.connBuildSyn host.tick).2)) :=
    @enqueue_ordered { host.sk with sndNxt := verno + 1 }
      (ctrlSkb svhSyn verno _) opened none rfl
  exact ⟨verno, 1, Nat.le_refl 1, first.quiet (servalSalWriteXmit_quiet run)⟩

private theorem respondSock_numbers (listener : ServalSock) (rsk : RequestSock) :
    Opened (respondSock listener rsk) ∧ (respondSock listener rsk).ctrlUnsent = [] ∧
      (respondSock listener rsk).sndUna = rsk.issSeq ∧
      (respondSock listener rsk).sndNxt = rsk.issSeq + 1 := by
  rw [respondSock, servalSockHash]
  split <;> exact ⟨⟨by rintro ⟨⟩, by rintro ⟨⟩⟩, rfl, rfl, rfl⟩

theorem Opens.ordered (opens : Opens env host) : ∃ base, ∃ nxt ≤ 1, Ordered base nxt host.sk := by
  cases opens with
  | responds listener rsk made =>
    have gap : (rsk.issSeq + 1 - rsk.issSeq).toNat = 1 := by rw [toNat_succ_sub] <;> simp
    obtain ⟨opened, none, una, next⟩ := respondSock_numbers listener rsk
    rw [← made] at opened none una next
    refine ⟨rsk.issSeq, 1, Nat.le_refl 1, .of_none opened none una ?_⟩
    rw [next]
    exact gap
  | @connects fresh host srvid err init una nxt noneSent none run =>
    obtain ⟨⟨err, middle⟩, sent, run⟩ := of_bind run
    have hashed := servalSockHash_quiet { fresh.sk with skState := .request, peerSrvid := srvid }
    have unsent : (servalSockHash { fresh.sk with skState := .request, peerSrvid := srvid }
          ).ctrlUnsent = [] := by
      rw [servalSockHash]
      split <;> exact none
    obtain ⟨base, nxt, few, ordered⟩ := servalSalSendSyn_ordered (hashed.opened ⟨by simp, by simp⟩)
        (hashed.sndNxt.trans ((nxt.trans una.symm).trans hashed.sndUna.symm))
        unsent sent
    refine ⟨base, nxt, few, ?_⟩
    dsimp only at run
    split at run
    · obtain ⟨last, unhashed, run⟩ := of_bind run
      cases run
      obtain ⟨keyLen, table, rfl, -⟩ := servalSockUnhash_spec unhashed
      exact ordered.quiet ⟨rfl, rfl, .refl _, fun _ => ⟨by rintro ⟨⟩, by rintro ⟨⟩⟩⟩
    · cases run
      exact ordered

/-- The numbers are in order as long as fewer than half of them were used. -/
def SeqRun.InOrder (s : SeqRun) : Prop :=
  s.sent < 2 ^ 31 → ∃ base, ∃ nxt ≤ s.sent, Ordered base nxt s.host.sk

variable {s s' : SeqRun} {event : SockEvent}

private theorem seqStep_forward (inOrder : s.InOrder) (few : s'.sent < 2 ^ 31)
    (keeps : KeepsOrder s.host.sk event)
    (step : seqStep env s event = .ok s') :
    ∃ base nxt nxt', nxt ≤ nxt' ∧ nxt' ≤ s'.sent ∧ Ordered base nxt s.host.sk ∧
      Forward base (s.host.sk.sndUna - base).toNat nxt' s'.host.sk := by
  obtain ⟨host', run, step⟩ := of_bind step
  cases step
  dsimp only at few ⊢
  obtain ⟨base, nxt, bound, ordered⟩ := inOrder (by omega)
  obtain ⟨n, -, forward⟩ := sockStep_forward ⟨ordered, Nat.le_refl _⟩ (by omega) keeps run
  have used : (host'.sk.sndNxt - s.host.sk.sndNxt).toNat = n := by
    apply @toNat_sub_eq base
    rw [forward.sndNxt, ordered.sndNxt]
  exact ⟨base, nxt, nxt + n, Nat.le_add_right nxt n, by omega, ordered, forward⟩

private theorem SeqRun.InOrder.step (inOrder : s.InOrder) (keeps : KeepsOrder s.host.sk event)
    (step : seqStep env s event = .ok s') : s'.InOrder := by
  intro few
  obtain ⟨base, -, nxt', -, bound, -, forward⟩ := seqStep_forward inOrder few keeps step
  exact ⟨base, nxt', bound, forward.toOrdered⟩

/-- In every run in which no acknowledgement passes a packet that waits
unsent, and with fewer control packets than half of the numbers, all three
numbers of the socket only move forward. -/
theorem seqRun_advances {start : SalHost} {events : List SockEvent} (opens : Opens env start)
    (kept : Admits (seqStep env) (fun s => KeepsOrder s.host.sk) ⟨start, 1⟩ events)
    (run : runAll (seqStep env) ⟨start, 1⟩ events = .ok s)
    (keeps : KeepsOrder s.host.sk event)
    (step : seqStep env s event = .ok s') (few : s'.sent < 2 ^ 31)
    (left : s.host.sk.skState ≠ .request) :
    SeqAdvances s.host.sk s'.host.sk := by
  have inOrder : s.InOrder := runAll_invariant
      (fun s event s' inOrder keeps step => inOrder.step keeps step)
      (fun _ => opens.ordered) kept run
  obtain ⟨base, nxt, nxt', more, bound, ordered, forward⟩ := seqStep_forward inOrder few keeps step
  have una := forward.sndUna
  refine ⟨?_, ?_, ?_, ?_⟩
  · exact @not_before_of_le base _ _ forward.forward (by omega)
  · apply @not_before_of_le base
    · rw [ordered.sndNxt, forward.sndNxt]
      exact more
    · rw [forward.sndNxt]
      omega
  · apply @not_before_of_le base
    · rw [forward.sndNxt]
      exact una
    · rw [forward.sndNxt]
      omega
  · obtain ⟨host', stepped, step⟩ := of_bind step
    cases step
    exact sockStep_stepsForward ordered.opened left stepped

end

def respondingHost : SalHost :=
  plainHost (respondSock plainSock plainRsk)
    (rootTable .forward (.dev 1 "eth0") [10, 0, 0, 2])

private theorem respondingHost_opens (env : SalEnv) : Opens env respondingHost :=
  .responds plainSock plainRsk rfl

theorem seqRun_advances_migrating : ∃ s s',
      runAll (seqStep plainEnv) ⟨respondingHost, 1⟩ [.migrate 2] = .ok s ∧
      seqStep plainEnv s (.migrate 3) = .ok s' ∧ s'.sent = 3 ∧
      SeqAdvances s.host.sk s'.host.sk := by
  obtain ⟨s, run, state⟩ := @exists_of_leaves _
      (runAll (seqStep plainEnv) ⟨respondingHost, 1⟩ [.migrate 2])
      (fun s => s.host.sk.skState = .respond &&
        leaves (seqStep plainEnv s (.migrate 3)) fun s' => s'.sent = 3)
      (by decide +kernel)
  rw [Bool.and_eq_true, decide_eq_true_eq] at state
  obtain ⟨s', step, sent⟩ := exists_of_leaves state.2
  have sent : s'.sent = 3 := by simpa using sent
  have kept : Admits (seqStep plainEnv) (fun s => KeepsOrder s.host.sk)
        ⟨respondingHost, 1⟩ [.migrate 2] :=
    ⟨trivial, fun _ _ => trivial⟩
  have keeps : KeepsOrder s.host.sk (.migrate 3) := trivial
  refine ⟨s, s', run, step, sent, ?_⟩
  refine seqRun_advances (respondingHost_opens plainEnv) kept run keeps step ?_ ?_
  · rw [sent]
    decide
  · rw [state.1]
    decide

def oneLossEnv : SalEnv := { plainEnv with xmit := fun tick => if tick < 3 then -1 else 0 }

/-- Two packets wait unsent when an acknowledgement passes both. The first
one is sent at last. -/
def passingHistory : List SockEvent :=
  [.migrate 2, .migrate 3, .receive (plainSkb
      { plainControl 7 103 (Vector.replicate 8 0) with ack := true }),
    .migrate 2]

/-- With the next packet, the oldest number goes back from 103 to 102. -/
theorem passingHistory_goes_back : Opens oneLossEnv respondingHost ∧
      ∃ s s', runAll (seqStep oneLossEnv) ⟨respondingHost, 1⟩ passingHistory = .ok s ∧
        seqStep oneLossEnv s (.migrate 3) = .ok s' ∧ s'.sent < 2 ^ 31 ∧
        s.host.sk.skState ≠ .request ∧ before s'.host.sk.sndUna s.host.sk.sndUna = true := by
  refine ⟨respondingHost_opens oneLossEnv, ?_⟩
  obtain ⟨s, run, last⟩ := @exists_of_leaves _
      (runAll (seqStep oneLossEnv) ⟨respondingHost, 1⟩ passingHistory)
      (fun s => s.host.sk.skState ≠ .request && leaves (seqStep oneLossEnv s (.migrate 3)) fun s' =>
          s'.sent < 2 ^ 31 && before s'.host.sk.sndUna s.host.sk.sndUna)
      (by decide +kernel)
  rw [Bool.and_eq_true, decide_eq_true_eq] at last
  obtain ⟨s', step, back⟩ := exists_of_leaves last.2
  rw [Bool.and_eq_true, decide_eq_true_eq] at back
  exact ⟨s, s', run, step, back.1, last.1, back.2⟩

end Serval
