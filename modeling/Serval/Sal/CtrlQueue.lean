import Mathlib.Data.List.TakeWhile
import Serval.Sal.State

/-!
# The discipline of the control queue

A new control packet is meant to take the place of all that are queued, and to
carry their flags. The queue is cleaned up to the send head only, which moves
on when a packet was sent: a packet whose transmission has failed stays, also
when a retransmission of it was acknowledged.
-/

namespace Serval

open Serval.Support

theorem hasFlag_or (first second : UInt8) (mask : Nat) : hasFlag (first ||| second) mask =
      (hasFlag first mask || hasFlag second mask) := by
  have split : (first ||| second) &&& UInt8.ofNat mask =
        (first &&& UInt8.ofNat mask) ||| (second &&& UInt8.ofNat mask) := by
    apply UInt8.toNat.inj
    simp only [UInt8.toNat_and, UInt8.toNat_or, Nat.and_or_distrib_right]
  rw [hasFlag, split, Bool.eq_iff_iff]
  simp only [hasFlag, bne_iff_ne, ne_eq, UInt8.or_eq_zero_iff, Bool.or_eq_true]
  tauto

def mergeFlags (flags : UInt8) (packets : List CtrlSkb) : UInt8 :=
  packets.foldl (fun flags skb => flags ||| skb.cb.flags) flags

private theorem hasFlag_mergeFlags (flags : UInt8) (packets : List CtrlSkb) (mask : Nat) :
    hasFlag (mergeFlags flags packets) mask = (hasFlag flags mask ||
        packets.any fun skb => hasFlag skb.cb.flags mask) := by
  induction packets generalizing flags with
  | nil => simp [mergeFlags]
  | cons skb rest ih =>
    rw [mergeFlags, List.foldl_cons, ← mergeFlags, ih, hasFlag_or, List.any_cons, Bool.or_assoc]

/-! ## Taking over the queue -/

/-- All packets in front of the send head go. The unacknowledged version is
then that of the first packet behind it, if there is one. -/
theorem cleanLoop_all (unsent sent : List CtrlSkb) (una : UInt32) (flags : UInt8) :
    (cleanLoop 0 true unsent sent una flags).1 = [] ∧
      (cleanLoop 0 true unsent sent una flags).2.2 = mergeFlags flags sent ∧
      ∀ skb ∈ unsent.head?, (cleanLoop 0 true unsent sent una flags).2.1 =
          if sent = [] then una else skb.cb.verno := by
  induction sent generalizing una flags with
  | nil => exact ⟨rfl, rfl, fun _ _ => rfl⟩
  | cons skb rest ih =>
    rw [cleanLoop]
    simp only [Bool.or_true, if_true]
    obtain ⟨empty, merged, behind⟩ := ih ((((rest ++ unsent).head?).map (·.cb.verno)).getD una)
        (flags ||| skb.cb.flags)
    refine ⟨empty, merged, ?_⟩
    intro first waits
    rw [behind first waits]
    cases rest with
    | nil =>
      have first : unsent.head? = some first := waits
      simp [first]
    | cons next others => simp

def CtrlSkb.overriding (skb : CtrlSkb) (sent : List CtrlSkb) : CtrlSkb :=
  { skb with cb.flags := skb.cb.flags ||| mergeFlags 0 sent }

section

variable (sk : ServalSock) (skb : CtrlSkb)

theorem enqueue_ctrlSent : (enqueue sk skb).ctrlSent = [] :=
  (cleanLoop_all sk.ctrlUnsent sk.ctrlSent sk.sndUna 0).1

theorem enqueue_ctrlUnsent : (enqueue sk skb).ctrlUnsent =
      sk.ctrlUnsent ++ [skb.overriding sk.ctrlSent] := by
  rw [CtrlSkb.overriding, ← (cleanLoop_all sk.ctrlUnsent sk.ctrlSent sk.sndUna 0).2.1]
  rfl

theorem enqueue_sndUna : (enqueue sk skb).sndUna =
      match sk.ctrlUnsent.head? with
      | none => skb.cb.verno
      | some first => if sk.ctrlSent = [] then sk.sndUna else first.cb.verno := by
  obtain ⟨empty, -, behind⟩ := cleanLoop_all sk.ctrlUnsent sk.ctrlSent sk.sndUna 0
  have written : (enqueue sk skb).sndUna =
        if ((cleanLoop 0 true sk.ctrlUnsent sk.ctrlSent sk.sndUna 0).1 ++
            sk.ctrlUnsent).isEmpty then
          skb.cb.verno
        else
          (cleanLoop 0 true sk.ctrlUnsent sk.ctrlSent sk.sndUna 0).2.1 :=
    rfl
  rw [written, empty]
  cases unsent : sk.ctrlUnsent with
  | nil => rfl
  | cons first rest =>
    rw [← unsent]
    have head : first ∈ sk.ctrlUnsent.head? := by
      rw [unsent]
      rfl
    rw [behind first head, unsent]
    rfl

end

section

variable {env : SalEnv} {host host' : SalHost} {skb : CtrlSkb} {err : Int}

/-- A transmission moves the send head, and leaves the packets alone. -/
theorem servalSalWriteXmit_ctrlQueue (run : servalSalWriteXmit env host = .ok (err, host')) :
    host'.sk.ctrlQueue = host.sk.ctrlQueue := by
  obtain ⟨middle, ⟨_, _, _, _, rfl, -⟩, rfl | ⟨first, rest, head,
    rfl⟩⟩ := servalSalWriteXmit_spec run
  · rfl
  · show host.sk.ctrlSent ++ [first] ++ rest = host.sk.ctrlSent ++ host.sk.ctrlUnsent
    rw [head, List.append_assoc]
    rfl

private theorem servalSalQueueAndPush_ctrlQueue
    (run : servalSalQueueAndPush env host skb = .ok (err, host')) :
    host'.sk.ctrlQueue = host.sk.ctrlUnsent ++ [skb.overriding host.sk.ctrlSent] := by
  rw [servalSalWriteXmit_ctrlQueue run]
  show (enqueue host.sk skb).ctrlSent ++ (enqueue host.sk skb).ctrlUnsent = _
  rw [enqueue_ctrlSent, enqueue_ctrlUnsent, List.nil_append]

/-- The packet is alone in the queue, with the flags of all that were there,
and what it leaves is what its transmission left, with the packet moved behind
those that were sent. -/
structure TakesOver (env : SalEnv) (host : SalHost) (skb queued : CtrlSkb) (host' : SalHost) :
    Prop where
  same : queued.cb.verno = skb.cb.verno ∧ queued.data = skb.data
  alone : host'.sk.ctrlQueue = [queued]
  merged :
    ∀ old ∈ skb :: host.sk.ctrlQueue, ∀ mask,
      hasFlag old.cb.flags mask = true → hasFlag queued.cb.flags mask = true
  sent :
    ∃ after, servalSalTransmitSkb env (host.withSk (enqueue host.sk skb)) queued true =
        .ok (0, after) ∧
      host' = after.withSk
        { after.sk with ctrlSent := after.sk.ctrlSent ++ [queued], ctrlUnsent := [] }

theorem hasFlag_overriding {sent : List CtrlSkb} {old : CtrlSkb} (inside : old ∈ skb :: sent)
    {mask : Nat} (flag : hasFlag old.cb.flags mask = true) :
    hasFlag (skb.overriding sent).cb.flags mask = true := by
  rw [CtrlSkb.overriding, hasFlag_or, hasFlag_mergeFlags, Bool.or_eq_true, Bool.or_eq_true]
  rcases List.mem_cons.mp inside with rfl | inside
  · exact .inl flag
  · exact .inr (.inr (List.any_eq_true.mpr ⟨old, inside, flag⟩))

private theorem servalSalQueueAndPush_of_none (none : host.sk.ctrlUnsent = []) :
    servalSalQueueAndPush env host skb =
      if host.sk.sndNxt - skb.cb.verno ≤ host.sk.sndWnd then do
        let (err, after) ← servalSalTransmitSkb env (host.withSk (enqueue host.sk skb))
            (skb.overriding host.sk.ctrlSent) true
        if err < 0 then .ok (err, after)
        else
          .ok (err, after.withSk
            { after.sk with
              ctrlSent := after.sk.ctrlSent ++ [skb.overriding host.sk.ctrlSent]
              ctrlUnsent := [] })
      else
        .ok (0, host.withSk (enqueue host.sk skb)) := by
  have unsent := enqueue_ctrlUnsent host.sk skb
  have una := enqueue_sndUna host.sk skb
  rw [none] at unsent
  rw [none] at una
  rw [servalSalQueueAndPush, servalSalWriteXmit]
  simp only [SalHost.withSk]
  rw [unsent]
  simp only [una]
  rfl

/-- A packet takes over the queue if no earlier one waits unsent, and the
window lets it out. -/
theorem takesOver_iff (run : servalSalQueueAndPush env host skb = .ok (0, host')) :
    (∃ queued, TakesOver env host skb queued host') ↔
      host.sk.ctrlUnsent = [] ∧ host.sk.sndNxt - skb.cb.verno ≤ host.sk.sndWnd := by
  have queue := servalSalQueueAndPush_ctrlQueue run
  constructor
  · rintro ⟨queued, taken⟩
    have none : host.sk.ctrlUnsent = [] := by
      rw [taken.alone] at queue
      have length := congrArg List.length queue
      simpa using length
    refine ⟨none, ?_⟩
    -- Nothing goes out of a closed window, and the packet is still unsent.
    by_contra closed
    rw [servalSalQueueAndPush_of_none none, if_neg closed] at run
    cases run
    obtain ⟨after, -, behind⟩ := taken.sent
    have left : (enqueue host.sk skb).ctrlUnsent = [] :=
      congrArg (fun host => host.sk.ctrlUnsent) behind
    rw [enqueue_ctrlUnsent] at left
    simp at left
  · rintro ⟨none, opened⟩
    rw [none] at queue
    rw [servalSalQueueAndPush_of_none none, if_pos opened] at run
    obtain ⟨⟨err, after⟩, transmitted, run⟩ := of_bind run
    dsimp only at run
    split_ifs at run with failed
    · cases run
      exact absurd failed (by decide)
    cases run
    refine ⟨skb.overriding host.sk.ctrlSent, ⟨rfl, rfl⟩, queue, ?_, after, transmitted, rfl⟩
    intro old inside mask flag
    rw [ServalSock.ctrlQueue, none, List.append_nil] at inside
    exact hasFlag_overriding inside flag

/-- The packets that a loop has dropped are all of their kind, if they come
first. -/
theorem dropWhile_all_iff {α : Type} (test : α → Bool) (items : List α) :
    (∀ item ∈ items.dropWhile test, test item = false) ↔
      items.Pairwise fun first second =>
        test second = true → test first = true := by
  induction items with
  | nil => simp
  | cons item rest ih =>
    rw [List.pairwise_cons]
    cases here : test item with
    | true =>
      rw [List.dropWhile_cons_of_pos here, ih]
      simp
    | false =>
      rw [List.dropWhile_cons_of_neg (by simp [here])]
      constructor
      · intro none
        have later : ∀ other ∈ rest, test other = false := fun other inside =>
          none other (List.mem_cons_of_mem item inside)
        refine ⟨fun other inside yes => ?_, ?_⟩
        · rw [later other inside] at yes
          cases yes
        · apply List.pairwise_of_forall_mem_list
          intro one _ other inside yes
          rw [later other inside] at yes
          cases yes
      · intro order other inside
        rcases List.mem_cons.mp inside with rfl | inside
        · exact here
        · have second := order.1 other inside
          simpa using second

private theorem servalSalAckProcess_ctrlQueue {hdr : SalHeader}
    (run : servalSalAckProcess env host hdr = .ok (true, host')) :
    host'.sk.ctrlQueue = (host.sk.ctrlSent.dropWhile fun skb => after hdr.ackno skb.cb.verno) ++
        host.sk.ctrlUnsent := by
  have acked : (ackedSk host.sk hdr.ackno).ctrlQueue =
        (host.sk.ctrlSent.dropWhile fun skb => after hdr.ackno skb.cb.verno) ++
          host.sk.ctrlUnsent := by
    rw [ServalSock.ctrlQueue, ackedSk_ctrlSent]
    rfl
  rcases (servalSalAckProcess_spec run).2 with
    ⟨impossible, -⟩ | ⟨-, rfl | sends⟩
  · cases impossible
  · exact acked
  · obtain ⟨_, _, _, _, rfl, -⟩ := sends
    exact acked

/-- An acknowledgement cleans the queue of all that it covers if none of these
waits unsent, and if those that were sent come first. -/
theorem servalSalAckProcess_cleans_iff {hdr : SalHeader}
    (run : servalSalAckProcess env host hdr = .ok (true, host')) :
    (∀ skb ∈ host'.sk.ctrlQueue, before skb.cb.verno hdr.ackno = false) ↔
      (∀ skb ∈ host.sk.ctrlUnsent, before skb.cb.verno hdr.ackno = false) ∧
      host.sk.ctrlSent.Pairwise fun first second =>
        before second.cb.verno hdr.ackno = true → before first.cb.verno hdr.ackno = true := by
  rw [servalSalAckProcess_ctrlQueue run, List.forall_mem_append]
  have sent := dropWhile_all_iff (fun skb : CtrlSkb => after hdr.ackno skb.cb.verno)
      host.sk.ctrlSent
  exact (and_congr_left fun _ => sent).trans and_comm

end

/-- After a push without error the packet has taken over the queue, unless an
earlier one waits unsent or the window is closed. After an acknowledgement no
packet that it covers is queued, unless such a packet waits unsent, or was
sent behind one that is not covered. -/
theorem ctrlQueue_discipline_iff (env : SalEnv) (host : SalHost) :
    (∀ skb host', servalSalQueueAndPush env host skb = .ok (0, host') →
      ((∃ queued, TakesOver env host skb queued host') ↔
        host.sk.ctrlUnsent = [] ∧ host.sk.sndNxt - skb.cb.verno ≤ host.sk.sndWnd)) ∧
    ∀ hdr host', servalSalAckProcess env host hdr = .ok (true, host') →
      ((∀ skb ∈ host'.sk.ctrlQueue, before skb.cb.verno hdr.ackno = false) ↔
        (∀ skb ∈ host.sk.ctrlUnsent, before skb.cb.verno hdr.ackno = false) ∧
        host.sk.ctrlSent.Pairwise fun first second =>
          before second.cb.verno hdr.ackno = true → before first.cb.verno hdr.ackno = true) :=
  ⟨fun _ _ run => takesOver_iff run, fun _ _ run => servalSalAckProcess_cleans_iff run⟩

def deafEnv : SalEnv := { plainEnv with xmit := fun _ => -1 }

def lateAckHdr : SalHeader :=
  (plainSkb { plainControl 7 11 (Vector.replicate 8 6) with ack := true }).hdr

def stuckConnection : SalHost :=
  { plainConnection with
    sk :=
      { plainSock with
        salState := .sent
        retransmitTimer := true
        ctrlUnsent := [ctrlSkb svhRsyn 10 []]
        sndNxt := 11 }
    tick := 2 }

/-- A second packet is queued without an error, though it is not alone and
nothing was sent; and an acknowledgement of the first one, which the timer
sends again, leaves it in the queue. -/
theorem stuckConnection_undisciplined :
    servalSalMigrate deafEnv plainConnection = .ok (-1, stuckConnection) ∧
      (∃ host', servalSalMigrate deafEnv stuckConnection = .ok (0, host') ∧
        servalSalQueueAndPush deafEnv
          (stuckConnection.withSk { stuckConnection.sk with sndNxt := 12 })
          (ctrlSkb svhRsyn 11 []) = .ok (0, host') ∧ host'.out = [] ∧
        ¬ ∃ queued, TakesOver deafEnv
            (stuckConnection.withSk { stuckConnection.sk with sndNxt := 12 })
            (ctrlSkb svhRsyn 11 []) queued host') ∧
      ∃ host', servalSalAckProcess plainEnv stuckConnection lateAckHdr = .ok (true, host') ∧
        ∃ skb ∈ host'.sk.ctrlQueue, before skb.cb.verno lateAckHdr.ackno = true := by
  refine ⟨rfl, ⟨_, rfl, rfl, rfl, ?_⟩, _, rfl, _, .head _, by decide⟩
  rintro ⟨queued, taken⟩
  have length := congrArg List.length taken.alone
  cases length

end Serval
