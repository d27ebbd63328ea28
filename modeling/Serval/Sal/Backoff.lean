import Serval.Sal.Rtt
import Serval.Sal.State

/-!
# The retransmission timer

When the timer is armed, and with which delay. Every timeout doubles the
delay. The counter for this is only reset by a measurement, and there is none
for a packet that was sent twice.
-/

namespace Serval

open Serval.Support

/-- A host with the times of its socket: `when` for each packet in front of
the send head, the estimator, and the delay that the retransmission timer was
armed with. `since` is the delay of the last timeout, as long as the packet
that timed out is still the first of the queue. -/
structure Paced where
  host : SalHost
  whens : List UInt32
  rtt : RttState
  armed : Option Nat
  since : Option Nat

/-- `serval_sock_reset_xmit_timer`. -/
def resetXmitTimer (delay : UInt32) : Option Nat := some (min delay SAL_RTO_MAX).toNat

/-- The measurements in the loop of `serval_sal_clean_rtx_queue`; none is made
when all packets are cleaned away. -/
def cleanRtt (ackno nxt now : UInt32) (unsent : List CtrlSkb) :
    List CtrlSkb → List UInt32 → UInt32 → RttState → RttState
  | skb :: rest, sentAt :: whens, una, rtt =>
    if after ackno skb.cb.verno then
      let head := (rest ++ unsent).head?
      cleanRtt ackno nxt now unsent rest whens
        ((head.map (·.cb.verno)).getD una)
        (if hasFlag skb.cb.flags svhRetrans then rtt
        else servalSalUpdateRtt rtt ⟨now - sentAt, una, nxt⟩)
    else rtt
  | _, _, _, rtt => rtt

def timerAfterClean (armed : Option Nat) (rtt : RttState)
    (removed : Bool) (left : List CtrlSkb) : Option Nat :=
  if left.isEmpty then if removed then none else armed
  else resetXmitTimer rtt.rto

/-! ## What happens to a socket -/

/-- `serval_sal_queue_and_push` for a packet of the socket, which has counted
up to `nxt`. -/
def Paced.push (env : SalEnv) (s : Paced) (skb : CtrlSkb) (nxt now : UInt32) :
    Except Fault Paced := do
  let host := s.host.withSk { s.host.sk with sndNxt := nxt }
  let (_, host') ← servalSalQueueAndPush env host skb
  -- Only a packet behind the send head is still the first.
  let same := host.sk.ctrlSent.isEmpty && !host.sk.ctrlUnsent.isEmpty
  .ok
    { host := host'
      whens := host'.sk.ctrlSent.map fun _ => now
      rtt := s.rtt
      armed := resetXmitTimer s.rtt.rto
      since := if same then s.since else none }

/-- `serval_sal_ack_process`. -/
def Paced.ack (env : SalEnv) (s : Paced) (hdr : SalHeader) (now : UInt32) :
    Except Fault Paced := do
  let sk := s.host.sk
  let (accepted, host) ← servalSalAckProcess env s.host hdr
  if !accepted then .ok { s with host := host }
  else
    let left := (ackedSk sk hdr.ackno).ctrlSent
    let removed := decide (left.length ≠ sk.ctrlSent.length)
    let rtt := cleanRtt hdr.ackno sk.sndNxt now sk.ctrlUnsent sk.ctrlSent s.whens
        sk.sndUna s.rtt
    .ok
      { host := host
        whens := s.whens.drop (sk.ctrlSent.length - left.length)
        rtt := rtt
        armed := timerAfterClean s.armed rtt removed (left ++ sk.ctrlUnsent)
        since := if removed then none else s.since }

/-- `serval_sal_rexmit_timeout`. The shift is one of 32 bits, which takes the
count modulo 32. -/
def Paced.timeout (env : SalEnv) (s : Paced) : Except Fault Paced := do
  let host ← servalSalRexmitTimeout env s.host
  if s.host.sk.retransmits = env.maxRetransmits then
    .ok { s with host := host, armed := none, since := none }
  else
    let backoff := s.rtt.backoff + 1
    let delay := resetXmitTimer
        (min (s.rtt.rto <<< UInt32.ofNat backoff.toNat) SAL_RTO_MAX)
    .ok
      { s with
        host := host
        rtt := { s.rtt with backoff := backoff }
        armed := delay
        since := delay }

inductive PacedEvent where
  | push (skb : CtrlSkb) (nxt now : UInt32)
  | ack (hdr : SalHeader) (now : UInt32)
  | timeout

def pacedStep (env : SalEnv) (s : Paced) : PacedEvent → Except Fault Paced
  | .push skb nxt now => s.push env skb nxt now
  | .ack hdr now => s.ack env hdr now
  | .timeout => s.timeout env

def Paced.start (host : SalHost) (rttSeq : UInt32) : Paced where
  host := host.withSk { host.sk with ctrlSent := [], ctrlUnsent := [] }
  whens := []
  rtt := .init rttSeq
  armed := none
  since := none

def RttState.backedOff (rtt : RttState) : Nat :=
  min (rtt.rto.toNat * 2 ^ rtt.backoff.toNat) SAL_RTO_MAX.toNat

/-- What a time-out does to the delay. -/
structure BacksOff (s s' : Paced) : Prop where
  rto : s'.rtt.rto = s.rtt.rto
  shift : s'.rtt.backoff.toNat < 32
  delay : s'.armed = some s'.rtt.backedOff
  least : min s.rtt.rto.toNat SAL_RTO_MAX.toNat ≤ s'.rtt.backedOff
  grows : ∀ delay, s.since = some delay → delay ≤ s'.rtt.backedOff

def Paced.InRange (s : Paced) : Prop := SAL_RTO_MIN ≤ s.rtt.rto ∧ s.rtt.rto ≤ SAL_RTO_MAX

/-- The doubled delay still fits 32 bits. -/
def FewTimeouts (s : Paced) : PacedEvent → Prop
  | .timeout => s.rtt.rto.toNat * 2 ^ (s.rtt.backoff.toNat + 1) < 2 ^ 32
  | _ => True

def pacedAllowed (s : Paced) (event : PacedEvent) : Prop := s.InRange ∧ FewTimeouts s event

def Paced.Steady (s : Paced) : Prop := ∀ delay, s.since = some delay → delay = s.rtt.backedOff

private theorem toNat_shiftLeft {rto : UInt32} {count : Nat} (small : count < 32)
    (fits : rto.toNat * 2 ^ count < 2 ^ 32) :
    (rto <<< UInt32.ofNat count).toNat = rto.toNat * 2 ^ count := by
  rw [UInt32.toNat_shiftLeft, UInt32.toNat_ofNat_of_lt' (by show _ < 2 ^ 32; omega),
    Nat.mod_eq_of_lt small, Nat.shiftLeft_eq, Nat.mod_eq_of_lt fits]

/-- A delay that is not zero cannot be doubled 32 times. -/
theorem doublings_lt {rto : UInt32} (least : SAL_RTO_MIN ≤ rto) {count : Nat}
    (fits : rto.toNat * 2 ^ count < 2 ^ 32) : count < 32 := by
  have some : SAL_RTO_MIN.toNat ≤ rto.toNat := UInt32.le_iff_toNat_le.mp least
  have positive : 0 < rto.toNat := Nat.lt_of_lt_of_le (by decide) some
  exact (Nat.pow_lt_pow_iff_right (by decide)).mp
    (Nat.lt_of_le_of_lt (Nat.le_mul_of_pos_left _ positive) fits)

private theorem resetXmitTimer_backedOff {rtt : RttState} (small : rtt.backoff.toNat < 32)
    (fits : rtt.rto.toNat * 2 ^ rtt.backoff.toNat < 2 ^ 32) :
    resetXmitTimer
        (min (rtt.rto <<< UInt32.ofNat rtt.backoff.toNat) SAL_RTO_MAX) =
      some rtt.backedOff := by
  rw [resetXmitTimer, toNat_min, toNat_min, toNat_shiftLeft small fits, RttState.backedOff,
    min_assoc, min_self]

private theorem toNat_backoff_succ {backoff : UInt8} (few : backoff.toNat + 1 < 32) :
    (backoff + 1).toNat = backoff.toNat + 1 := by
  rw [UInt8.toNat_add, UInt8.toNat_one]
  omega

/-- The first doubling is on top of the whole delay, and so is every other. -/
theorem RttState.backedOff_succ {rtt : RttState} (few : rtt.backoff.toNat + 1 < 32) :
    rtt.backedOff ≤ { rtt with backoff := rtt.backoff + 1 : RttState }.backedOff := by
  rw [backedOff, backedOff, toNat_backoff_succ few]
  exact min_le_min_right _ (Nat.mul_le_mul_left _ (Nat.pow_le_pow_right (by decide) (by omega)))

private theorem RttState.rto_le_backedOff (rtt : RttState) :
    min rtt.rto.toNat SAL_RTO_MAX.toNat ≤ rtt.backedOff :=
  min_le_min_right _ (Nat.le_mul_of_pos_right _ (Nat.two_pow_pos _))

variable {env : SalEnv} {s s' : Paced}

/-- The delay that a timeout arms is the one its counter says. -/
theorem pacedAllowed.armed (allowed : pacedAllowed s .timeout) :
    (s.rtt.backoff + 1).toNat = s.rtt.backoff.toNat + 1 ∧ s.rtt.backoff.toNat + 1 < 32 ∧
      resetXmitTimer (min (s.rtt.rto <<< UInt32.ofNat (s.rtt.backoff + 1).toNat) SAL_RTO_MAX) =
        some { s.rtt with backoff := s.rtt.backoff + 1 : RttState }.backedOff := by
  obtain ⟨inRange, fits⟩ := allowed
  have few := doublings_lt inRange.1 fits
  have next := toNat_backoff_succ few
  exact ⟨next, few, @resetXmitTimer_backedOff { s.rtt with backoff := s.rtt.backoff + 1 }
    (next.trans_lt few) (by rw [next]; exact fits)⟩

private theorem Paced.Steady.timeout (run : s.timeout env = .ok s')
    (allowed : pacedAllowed s .timeout) : s'.Steady := by
  obtain ⟨host, -, run⟩ := of_bind run
  split at run
  · cases run
    intro delay since
    cases since
  cases run
  intro delay since
  exact Option.some.inj (since.symm.trans allowed.armed.2.2)

private theorem Paced.Steady.push {skb : CtrlSkb} {nxt now : UInt32}
    (steady : s.Steady) (run : s.push env skb nxt now = .ok s') :
    s'.Steady := by
  obtain ⟨⟨err, host⟩, -, run⟩ := of_bind run
  cases run
  intro delay since
  split at since
  · exact steady delay since
  · cases since

private theorem cleanRtt_unchanged {ackno nxt now una : UInt32} {unsent sent : List CtrlSkb}
    {whens : List UInt32} {rtt : RttState}
    (kept : (sent.dropWhile fun skb => after ackno skb.cb.verno).length = sent.length) :
    cleanRtt ackno nxt now unsent sent whens una rtt = rtt := by
  cases sent with
  | nil => rfl
  | cons skb rest =>
    cases whens with
    | nil => rfl
    | cons sentAt whens =>
      rw [cleanRtt]
      split
      · next covered =>
          have shorter := (List.dropWhile_suffix (l := rest)
              fun skb => after ackno skb.cb.verno).length_le
          rw [List.dropWhile_cons, if_pos covered, List.length_cons]
            at kept
          omega
      · rfl

private theorem Paced.Steady.ack {env : SalEnv} {s s' : Paced} {hdr : SalHeader} {now : UInt32}
    (steady : s.Steady) (run : s.ack env hdr now = .ok s') : s'.Steady := by
  obtain ⟨⟨accepted, host⟩, -, run⟩ := of_bind run
  dsimp only at run
  split at run
  · cases run
    exact steady
  cases run
  intro delay since
  split at since
  · cases since
  · next kept =>
      rw [decide_eq_true_eq, not_not, ackedSk_ctrlSent] at kept
      rw [cleanRtt_unchanged kept]
      exact steady delay since

private theorem Paced.Steady.step {event : PacedEvent} (steady : s.Steady)
    (allowed : pacedAllowed s event) (run : pacedStep env s event = .ok s') :
    s'.Steady := by
  cases event with
  | push skb nxt now => exact steady.push run
  | ack hdr now => exact steady.ack run
  | timeout => exact .timeout run allowed

private theorem Paced.steady_start (host : SalHost) (rttSeq : UInt32) :
    (Paced.start host rttSeq).Steady := by
  intro delay since
  cases since

instance (s : Paced) : Decidable s.InRange := inferInstanceAs (Decidable (_ ∧ _))

instance (s : Paced) : (event : PacedEvent) → Decidable (FewTimeouts s event)
  | .push .. => inferInstanceAs (Decidable True)
  | .ack .. => inferInstanceAs (Decidable True)
  | .timeout => inferInstanceAs (Decidable (_ < _))

instance (s : Paced) (event : PacedEvent) : Decidable (pacedAllowed s event) :=
  inferInstanceAs (Decidable (_ ∧ _))

private def ackHdr (verno ackno : UInt32) : SalHeader :=
  (plainSkb { plainControl verno ackno (Vector.replicate 8 6) with
    ack := true }).hdr

def steadyHistory : List PacedEvent :=
  [.push (ctrlSkb svhRsyn 10 []) 11 0, .timeout, .timeout, .ack (ackHdr 7 11) 0,
    .push (ctrlSkb svhRsyn 11 []) 12 0, .timeout]

def lossyHistory : List PacedEvent :=
  .push (ctrlSkb svhRsyn 10 []) 11 0 :: List.replicate 15 .timeout ++
    (.ack (ackHdr 7 11) 0 :: .push (ctrlSkb svhRsyn 11 []) 12 0 :: List.replicate 14 .timeout)

/-! ## Every timeout -/

/-- In every run whose delays, doubled once more, fit 32 bits (with the longest
delay: at most 18 timeouts between two measurements), every timeout arms the
timer with the delay that the counter says, and the delays for one packet never
fall. -/
theorem timeouts_back_off (env : SalEnv) (host : SalHost) (rttSeq : UInt32)
    (history : List PacedEvent) (s s' : Paced)
    (run : runAll (pacedStep env) (.start host rttSeq) history = .ok s)
    (few : Admits (pacedStep env) pacedAllowed (.start host rttSeq) history)
    (still : pacedAllowed s .timeout)
    (timeout : pacedStep env s .timeout = .ok s')
    (retries : s.host.sk.retransmits ≠ env.maxRetransmits) :
    BacksOff s s' := by
  have steady : s.Steady := runAll_invariant (fun _ _ _ steady allowed => steady.step allowed)
      (Paced.steady_start host rttSeq) few run
  obtain ⟨next, few, armed⟩ := still.armed
  obtain ⟨host', -, timeout⟩ := of_bind timeout
  rw [if_neg retries] at timeout
  cases timeout
  constructor
  · rfl
  · exact next.trans_lt few
  · exact armed
  · exact RttState.rto_le_backedOff { s.rtt with backoff := s.rtt.backoff + 1 }
  · intro delay since
    rw [steady delay since]
    exact RttState.backedOff_succ few

theorem timeouts_back_off_steady : ∃ s s',
      runAll (pacedStep plainEnv) (.start plainConnection 0) steadyHistory = .ok s ∧
      Admits (pacedStep plainEnv) pacedAllowed (.start plainConnection 0)
        steadyHistory ∧ pacedAllowed s .timeout ∧ pacedStep plainEnv s .timeout = .ok s' ∧
      s.host.sk.retransmits ≠ plainEnv.maxRetransmits ∧ BacksOff s s' := by
  obtain ⟨s, run, test⟩ := @exists_of_leaves _
      (runAll (pacedStep plainEnv) (.start plainConnection 0) steadyHistory)
      (fun s => decide (pacedAllowed s .timeout ∧
        s.host.sk.retransmits ≠ plainEnv.maxRetransmits) &&
        leaves (pacedStep plainEnv s .timeout) fun _ => true)
      (by decide +kernel)
  rw [Bool.and_eq_true, decide_eq_true_eq] at test
  obtain ⟨⟨still, retries⟩, ends⟩ := test
  obtain ⟨s', timeout, -⟩ := exists_of_leaves ends
  have few : Admits (pacedStep plainEnv) pacedAllowed (.start plainConnection 0)
        steadyHistory := by
    decide +kernel
  exact ⟨s, s', run, few, still, timeout, retries,
    timeouts_back_off plainEnv plainConnection 0 steadyHistory s s' run few
      still timeout retries⟩

/-- No packet was sent only once, so the counter has come to 30, and the
shifted delay is zero. -/
theorem lossyHistory_no_delay : ∃ s s',
      runAll (pacedStep plainEnv) (.start plainConnection 0) lossyHistory = .ok s ∧
      pacedStep plainEnv s .timeout = .ok s' ∧
      s.InRange ∧ s.host.sk.retransmits ≠ plainEnv.maxRetransmits ∧
      s'.armed = some 0 ∧ s'.rtt.backedOff = 12000 ∧ ¬ BacksOff s s' := by
  obtain ⟨s, run, test⟩ := @exists_of_leaves _
      (runAll (pacedStep plainEnv) (.start plainConnection 0) lossyHistory)
      (fun s => decide (s.InRange ∧ s.host.sk.retransmits ≠ plainEnv.maxRetransmits) &&
        leaves (pacedStep plainEnv s .timeout) fun s' =>
          decide (s'.armed = some 0 ∧ s'.rtt.backedOff = 12000))
      (by decide +kernel)
  rw [Bool.and_eq_true, decide_eq_true_eq] at test
  obtain ⟨⟨inRange, retries⟩, ends⟩ := test
  obtain ⟨s', timeout, test⟩ := exists_of_leaves ends
  obtain ⟨armed, exactly⟩ := of_decide_eq_true test
  refine ⟨s, s', run, timeout, inRange, retries, armed, exactly, ?_⟩
  intro backsOff
  rw [backsOff.delay, exactly] at armed
  exact absurd (Option.some.inj armed) (by decide)

end Serval
