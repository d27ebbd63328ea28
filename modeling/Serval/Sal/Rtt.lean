import Mathlib.Data.UInt
import Serval.Support.Serial

/-!
# Round trip times

The estimator behind the retransmission timer. The fields are numbers of 32
bits, the measurement itself is a `long`; times are in ticks.
-/

namespace Serval

open Serval.Support

def HZ : Nat := 100

def SAL_RTO_MAX : UInt32 := UInt32.ofNat (120 * HZ)

def SAL_RTO_MIN : UInt32 := UInt32.ofNat (HZ / 5)

def SAL_TIMEOUT_INIT : UInt32 := UInt32.ofNat (3 * HZ)

/-- The part of `struct serval_sock` that the estimator works on. -/
structure RttState where
  backoff : UInt8
  rto : UInt32
  srtt : UInt32
  mdev : UInt32
  mdevMax : UInt32
  rttvar : UInt32
  rttSeq : UInt32
  deriving DecidableEq, Repr

/-- What `serval_sock_init` sets; `rtt_seq` is not among it. -/
def RttState.init (rttSeq : UInt32) : RttState where
  backoff := 0
  rto := SAL_TIMEOUT_INIT
  srtt := 0
  mdev := SAL_TIMEOUT_INIT
  mdevMax := SAL_TIMEOUT_INIT
  rttvar := SAL_TIMEOUT_INIT
  rttSeq := rttSeq

/-- A measurement, and `snd_seq` at the time of it. -/
structure RttSample where
  mrtt : UInt32
  una : UInt32
  nxt : UInt32
  deriving DecidableEq, Repr

/-- A `long` that is stored in a field of 32 bits. -/
def ofLong (m : Int) : UInt32 := UInt32.ofNat (m % 2 ^ 32).toNat

def RttSample.time (sample : RttSample) : Int :=
  if sample.mrtt = 0 then 1 else sample.mrtt.toNat

/-- What is added to the mean deviation, for an error in the estimate. The
gain is finer when the round trip time goes down. -/
def deviation (m mdev : Int) : Int :=
  if m < 0 then
    let m := -m - mdev / 4
    if 0 < m then m / 8 else m
  else m - mdev / 4

def servalSalRtoMin : UInt32 := SAL_RTO_MIN

def RttState.notePeak (r : RttState) : RttState :=
  if r.mdevMax < r.mdev then
    { r with
      mdevMax := r.mdev
      rttvar := if r.rttvar < r.mdev then r.mdev else r.rttvar }
  else r

/-- A period ends when all that was sent at its start is acknowledged. -/
def RttState.endPeriod (r : RttState) (una nxt : UInt32) : RttState :=
  if after una r.rttSeq then
    { r with
      rttvar :=
        if r.mdevMax < r.rttvar then r.rttvar - (r.rttvar - r.mdevMax) / 4
        else r.rttvar
      rttSeq := nxt
      mdevMax := servalSalRtoMin }
  else r

def servalSalRttEstimator (r : RttState) (sample : RttSample) : RttState :=
  let m := sample.time
  if r.srtt ≠ 0 then
    let m := m - (r.srtt / 8).toNat
    let r :=
      { r with
        srtt := ofLong (r.srtt.toNat + m)
        mdev := ofLong (r.mdev.toNat + deviation m r.mdev.toNat) }
    r.notePeak.endPeriod sample.una sample.nxt
  else
    let mdev := ofLong (m * 2)
    { r with
      srtt := ofLong (m * 8)
      mdev := mdev
      mdevMax := max mdev servalSalRtoMin
      rttvar := max mdev servalSalRtoMin
      rttSeq := sample.nxt }

/-- `serval_sal_set_rto`, with `serval_sal_bound_rto`; there is no clamp at the
lower end. -/
def servalSalSetRto (r : RttState) : RttState :=
  { r with rto := min (r.srtt / 8 + r.rttvar) SAL_RTO_MAX }

def servalSalUpdateRtt (r : RttState) (sample : RttSample) : RttState :=
  { servalSalSetRto (servalSalRttEstimator r sample) with backoff := 0 }

/-! ## The computation without bounds -/

/-- The same estimate, in numbers that do not wrap. -/
structure ExactRtt where
  srtt : Int
  mdev : Int
  mdevMax : Int
  rttvar : Int
  rttSeq : UInt32

def ExactRtt.init (rttSeq : UInt32) : ExactRtt where
  srtt := 0
  mdev := 300
  mdevMax := 300
  rttvar := 300
  rttSeq := rttSeq

def ExactRtt.notePeak (e : ExactRtt) : ExactRtt :=
  if e.mdevMax < e.mdev then
    { e with mdevMax := e.mdev, rttvar := max e.rttvar e.mdev }
  else e

def ExactRtt.endPeriod (e : ExactRtt) (una nxt : UInt32) : ExactRtt :=
  if after una e.rttSeq then
    { e with
      rttvar :=
        if e.mdevMax < e.rttvar then e.rttvar - (e.rttvar - e.mdevMax) / 4
        else e.rttvar
      rttSeq := nxt
      mdevMax := 20 }
  else e

def ExactRtt.update (e : ExactRtt) (sample : RttSample) : ExactRtt :=
  let m := sample.time
  if e.srtt ≠ 0 then
    let m := m - e.srtt / 8
    let e :=
      { e with
        srtt := e.srtt + m
        mdev := e.mdev + deviation m e.mdev }
    e.notePeak.endPeriod sample.una sample.nxt
  else
    { srtt := m * 8
      mdev := m * 2
      mdevMax := max (m * 2) 20
      rttvar := max (m * 2) 20
      rttSeq := sample.nxt }

/-! ## The fields follow the integers -/

structure RttState.Shows (r : RttState) (e : ExactRtt) : Prop where
  srtt : (r.srtt.toNat : Int) = e.srtt
  mdev : (r.mdev.toNat : Int) = e.mdev
  mdevMax : (r.mdevMax.toNat : Int) = e.mdevMax
  rttvar : (r.rttvar.toNat : Int) = e.rttvar
  rttSeq : r.rttSeq = e.rttSeq

structure ExactRtt.Bounded (e : ExactRtt) : Prop where
  positive : 0 < e.srtt
  srtt : e.srtt ≤ 2 ^ 29
  mdev_nonneg : 0 ≤ e.mdev
  mdev : e.mdev ≤ 2 ^ 28
  mdevMax_least : 20 ≤ e.mdevMax
  mdevMax : e.mdevMax ≤ 2 ^ 28
  rttvar_least : 20 ≤ e.rttvar
  rttvar : e.rttvar ≤ 2 ^ 28

private theorem toNat_max (a b : UInt32) : (max a b).toNat = max a.toNat b.toNat := by
  show (if a ≤ b then b else a).toNat = _
  split
  · next le =>
      rw [UInt32.le_iff_toNat_le] at le
      omega
  · next gt =>
      rw [UInt32.le_iff_toNat_le] at gt
      omega

theorem toNat_min (a b : UInt32) : (min a b).toNat = min a.toNat b.toNat := by
  show (if a ≤ b then a else b).toNat = _
  split
  · next le =>
      rw [UInt32.le_iff_toNat_le] at le
      omega
  · next gt =>
      rw [UInt32.le_iff_toNat_le] at gt
      omega

private theorem toNat_ofLong {m : Int} (nonneg : 0 ≤ m) (small : m < 2 ^ 32) :
    ((ofLong m).toNat : Int) = m := by
  rw [ofLong, UInt32.toNat_ofNat_of_lt' (by show _ < 2 ^ 32; omega)]
  omega

private theorem RttSample.time_bounds {sample : RttSample} (small : sample.mrtt.toNat < 2 ^ 26) :
    1 ≤ sample.time ∧ sample.time ≤ 2 ^ 26 := by
  rw [RttSample.time]
  split
  · omega
  · next positive =>
      have apart : sample.mrtt.toNat ≠ 0 := fun zero =>
        positive (UInt32.toNat_inj.mp zero)
      omega

private theorem deviation_bounds {m mdev : Int} (least : -2 ^ 26 ≤ m) (most : m ≤ 2 ^ 26)
    (nonneg : 0 ≤ mdev) (bound : mdev ≤ 2 ^ 28) :
    0 ≤ mdev + deviation m mdev ∧ mdev + deviation m mdev ≤ 2 ^ 28 := by
  rw [deviation]
  dsimp only
  split
  · split
    · omega
    · omega
  · omega

namespace RttState.Shows

variable {r : RttState} {e : ExactRtt}

private theorem init (rttSeq : UInt32) : (RttState.init rttSeq).Shows (.init rttSeq) :=
  ⟨rfl, rfl, rfl, rfl, rfl⟩

private theorem notePeak (shown : r.Shows e) : r.notePeak.Shows e.notePeak := by
  obtain ⟨srtt, mdev, mdevMax, rttvar, rttSeq⟩ := shown
  have peak : r.mdevMax < r.mdev ↔ e.mdevMax < e.mdev := by
    rw [UInt32.lt_iff_toNat_lt]
    omega
  rw [RttState.notePeak, ExactRtt.notePeak]
  by_cases higher : e.mdevMax < e.mdev
  · rw [if_pos (peak.mpr higher), if_pos higher]
    refine ⟨srtt, mdev, mdev, ?_, rttSeq⟩
    dsimp only
    split
    · next above =>
        rw [UInt32.lt_iff_toNat_lt] at above
        omega
    · next below =>
        rw [UInt32.lt_iff_toNat_lt] at below
        omega
  · rw [if_neg (fun above => higher (peak.mp above)), if_neg higher]
    exact ⟨srtt, mdev, mdevMax, rttvar, rttSeq⟩

private theorem endPeriod (shown : r.Shows e) (una nxt : UInt32) :
    (r.endPeriod una nxt).Shows (e.endPeriod una nxt) := by
  obtain ⟨srtt, mdev, mdevMax, rttvar, rttSeq⟩ := shown
  have above : r.mdevMax < r.rttvar ↔ e.mdevMax < e.rttvar := by
    rw [UInt32.lt_iff_toNat_lt]
    omega
  rw [RttState.endPeriod, ExactRtt.endPeriod, rttSeq]
  split
  · refine ⟨srtt, mdev, rfl, ?_, rfl⟩
    dsimp only
    by_cases decays : e.mdevMax < e.rttvar
    · rw [if_pos (above.mpr decays)]
      have inner : r.mdevMax ≤ r.rttvar := by
        rw [UInt32.le_iff_toNat_le]
        omega
      have quarter : ((r.rttvar - r.mdevMax) / 4).toNat =
            (r.rttvar.toNat - r.mdevMax.toNat) / 4 := by
        rw [UInt32.toNat_div, UInt32.toNat_sub_of_le _ _ inner]
        rfl
      have outer : (r.rttvar - r.mdevMax) / 4 ≤ r.rttvar := by
        rw [UInt32.le_iff_toNat_le]
        omega
      rw [UInt32.toNat_sub_of_le _ _ outer]
      omega
    · rw [if_neg (fun lower => decays (above.mp lower)), if_neg decays]
      exact rttvar
  · exact ⟨srtt, mdev, mdevMax, rttvar, rttSeq⟩

private theorem estimate (shown : r.Shows e) (bounded : e.srtt = 0 ∨ e.Bounded)
    {sample : RttSample} (small : sample.mrtt.toNat < 2 ^ 26) :
    (servalSalRttEstimator r sample).Shows (e.update sample) := by
  obtain ⟨least, most⟩ := sample.time_bounds small
  have fresh : r.srtt ≠ 0 ↔ e.srtt ≠ 0 := by
    rw [← shown.srtt, ne_eq, ← UInt32.toNat_inj]
    exact not_congr Int.natCast_eq_zero.symm
  rw [servalSalRttEstimator, ExactRtt.update]
  rcases bounded with first | bounded
  · rw [if_neg (fun later => fresh.mp later first), if_neg (not_not.mpr first)]
    have mdev := @toNat_ofLong (sample.time * 2) (by omega) (by omega)
    have srtt := @toNat_ofLong (sample.time * 8) (by omega) (by omega)
    have peak : ((max (ofLong (sample.time * 2)) servalSalRtoMin).toNat : Int) =
          max (sample.time * 2) 20 := by
      have least : servalSalRtoMin.toNat = 20 := rfl
      rw [toNat_max]
      omega
    exact ⟨srtt, mdev, peak, peak, rfl⟩
  · have later : e.srtt ≠ 0 := Int.ne_of_gt bounded.positive
    rw [if_pos (fresh.mpr later), if_pos later]
    apply endPeriod
    apply notePeak
    have eighth : ((r.srtt / 8).toNat : Int) = e.srtt / 8 := by
      rw [← shown.srtt]
      rfl
    have srttBound := bounded.srtt
    rw [eighth, shown.srtt, shown.mdev]
    obtain ⟨devLeast, devMost⟩ := @deviation_bounds (sample.time - e.srtt / 8) e.mdev (by omega)
        (by omega) bounded.mdev_nonneg bounded.mdev
    constructor
    · exact toNat_ofLong (by omega) (by omega)
    · exact toNat_ofLong devLeast (by omega)
    · exact shown.mdevMax
    · exact shown.rttvar
    · exact shown.rttSeq

end RttState.Shows

/-! ## The integers are bounded -/

namespace ExactRtt.Bounded

variable {e : ExactRtt}

private theorem notePeak (bounded : e.Bounded) : e.notePeak.Bounded := by
  obtain ⟨positive, srtt, mdev_nonneg, mdev, mdevMax_least, mdevMax, rttvar_least,
    rttvar⟩ := bounded
  rw [ExactRtt.notePeak]
  split
  · exact ⟨positive, srtt, mdev_nonneg, mdev, by dsimp only; omega, mdev, by dsimp only; omega,
      by dsimp only; omega⟩
  · exact ⟨positive, srtt, mdev_nonneg, mdev, mdevMax_least, mdevMax, rttvar_least, rttvar⟩

/-- The variation falls by a quarter of what it is above the peak, so it does
not fall below the peak. -/
theorem endPeriod (bounded : e.Bounded) (una nxt : UInt32) : (e.endPeriod una nxt).Bounded := by
  obtain ⟨positive, srtt, mdev_nonneg, mdev, mdevMax_least, mdevMax, rttvar_least,
    rttvar⟩ := bounded
  rw [ExactRtt.endPeriod]
  split
  · refine ⟨positive, srtt, mdev_nonneg, mdev, ?_, ?_, ?_, ?_⟩
    · exact Int.le_refl 20
    · show (20 : Int) ≤ 2 ^ 28
      decide
    · dsimp only
      split <;> omega
    · dsimp only
      split <;> omega
  · exact ⟨positive, srtt, mdev_nonneg, mdev, mdevMax_least, mdevMax, rttvar_least, rttvar⟩

private theorem update (bounded : e.srtt = 0 ∨ e.Bounded) {sample : RttSample}
    (small : sample.mrtt.toNat < 2 ^ 26) : (e.update sample).Bounded := by
  obtain ⟨least, most⟩ := sample.time_bounds small
  rw [ExactRtt.update]
  rcases bounded with first | bounded
  · rw [if_neg (not_not.mpr first)]
    constructor <;> dsimp only <;> omega
  rw [if_pos (Int.ne_of_gt bounded.positive)]
  apply endPeriod
  apply notePeak
  have srttBound := bounded.srtt
  have srttLeast := bounded.positive
  obtain ⟨devLeast, devMost⟩ := @deviation_bounds (sample.time - e.srtt / 8) e.mdev (by omega)
      (by omega) bounded.mdev_nonneg bounded.mdev
  exact
    { positive := by dsimp only; omega
      srtt := by dsimp only; omega
      mdev_nonneg := devLeast
      mdev := devMost
      mdevMax_least := bounded.mdevMax_least
      mdevMax := bounded.mdevMax
      rttvar_least := bounded.rttvar_least
      rttvar := bounded.rttvar }

end ExactRtt.Bounded

private theorem RttState.Shows.rto_bounds {r : RttState} {e : ExactRtt} (shown : r.Shows e)
    (bounded : e.Bounded) :
    SAL_RTO_MIN ≤ (servalSalSetRto r).rto ∧ (servalSalSetRto r).rto ≤ SAL_RTO_MAX := by
  have srtt := shown.srtt
  have rttvar := shown.rttvar
  have srttBound := bounded.srtt
  have rttvarBound := bounded.rttvar
  have rttvarLeast := bounded.rttvar_least
  have eighth : (r.srtt / 8).toNat = r.srtt.toNat / 8 := UInt32.toNat_div ..
  have sum : (r.srtt / 8 + r.rttvar).toNat = r.srtt.toNat / 8 + r.rttvar.toNat := by
    rw [UInt32.toNat_add]
    omega
  have most : SAL_RTO_MAX.toNat = 12000 := rfl
  have least : SAL_RTO_MIN.toNat = 20 := rfl
  rw [servalSalSetRto, UInt32.le_iff_toNat_le, UInt32.le_iff_toNat_le, toNat_min]
  omega

/-! ## Every sequence of measurements -/

structure RttState.Regular (r : RttState) (e : ExactRtt) : Prop extends r.Shows e where
  srtt_nonzero : r.srtt ≠ 0
  mdevMax_least : SAL_RTO_MIN ≤ r.mdevMax
  rttvar_least : SAL_RTO_MIN ≤ r.rttvar
  rto_least : SAL_RTO_MIN ≤ r.rto
  rto_most : r.rto ≤ SAL_RTO_MAX

private theorem RttState.Shows.update {r : RttState} {e : ExactRtt} (shown : r.Shows e)
    (bounded : e.srtt = 0 ∨ e.Bounded) {sample : RttSample}
    (small : sample.mrtt.toNat < 2 ^ 26) :
    (servalSalUpdateRtt r sample).Regular (e.update sample) := by
  have estimated := shown.estimate bounded small
  have after := ExactRtt.Bounded.update bounded small
  obtain ⟨rtoLeast, rtoMost⟩ := estimated.rto_bounds after
  have srtt := estimated.srtt
  have mdevMax := estimated.mdevMax
  have rttvar := estimated.rttvar
  have positive := after.positive
  have mdevMaxLeast := after.mdevMax_least
  have rttvarLeast := after.rttvar_least
  have least : SAL_RTO_MIN.toNat = 20 := rfl
  exact
    { estimated with
      srtt_nonzero := fun zero => by
        rw [show (servalSalRttEstimator r sample).srtt = 0 from zero] at srtt
        exact absurd srtt (Int.ne_of_lt positive)
      mdevMax_least := by
        show SAL_RTO_MIN.toNat ≤ (servalSalRttEstimator r sample).mdevMax.toNat
        omega
      rttvar_least := by
        show SAL_RTO_MIN.toNat ≤ (servalSalRttEstimator r sample).rttvar.toNat
        omega
      rto_least := rtoLeast
      rto_most := rtoMost }

private theorem RttState.Shows.updates {r : RttState} {e : ExactRtt} (shown : r.Shows e)
    (bounded : e.srtt = 0 ∨ e.Bounded) {samples : List RttSample}
    (small : ∀ sample ∈ samples, sample.mrtt.toNat < 2 ^ 26) :
    (samples.foldl servalSalUpdateRtt r).Shows
        (samples.foldl ExactRtt.update e) ∧
      ((samples.foldl ExactRtt.update e).srtt = 0 ∨ (samples.foldl ExactRtt.update e).Bounded) := by
  induction samples generalizing r e with
  | nil => exact ⟨shown, bounded⟩
  | cons sample rest ih =>
    have first := small sample List.mem_cons_self
    exact ih (shown.update bounded first).toShows (.inr (ExactRtt.Bounded.update bounded first))
      fun other member => small other (List.mem_cons_of_mem sample member)

/-- From a new socket on, after each of any measurements below `2 ^ 26` and
whatever `snd_seq` was meanwhile. -/
theorem updates_regular (rttSeq : UInt32) (samples : List RttSample) (last : RttSample)
    (small : ∀ sample ∈ samples ++ [last], sample.mrtt.toNat < 2 ^ 26) :
    ((samples ++ [last]).foldl servalSalUpdateRtt (.init rttSeq)).Regular
      ((samples ++ [last]).foldl ExactRtt.update (.init rttSeq)) := by
  rw [List.foldl_append, List.foldl_append]
  obtain ⟨shown, bounded⟩ := @RttState.Shows.updates _ _ (.init rttSeq) (.inl rfl) samples
      fun sample member => small sample (List.mem_append_left _ member)
  exact shown.update bounded (small last (List.mem_append_right _ (List.mem_singleton_self last)))

def threeSamples : List RttSample := [⟨0, 1, 2⟩, ⟨500, 2, 3⟩, ⟨2 ^ 26 - 1, 3, 4⟩]

def lastSample : RttSample := ⟨1, 5, 6⟩

theorem updates_regular_three :
    (∀ sample ∈ threeSamples ++ [lastSample], sample.mrtt.toNat < 2 ^ 26) ∧
    ((threeSamples ++ [lastSample]).foldl servalSalUpdateRtt (.init 0)).Regular
        ((threeSamples ++ [lastSample]).foldl ExactRtt.update (.init 0)) := by
  have small : ∀ sample ∈ threeSamples ++ [lastSample], sample.mrtt.toNat < 2 ^ 26 := by decide
  exact ⟨small, updates_regular 0 threeSamples lastSample small⟩

end Serval
