import Mathlib.Algebra.Order.Floor.Div

/-!
# The window that TCP offers

`serval_tcp_select_window` chooses the window of a segment that is sent. In a
run some bytes arrive before each segment. The run counts them without a bound,
the code modulo `2 ^ 32`.
-/

namespace Serval.Tcp

structure RcvSock where
  rcvNxt : Nat
  rcvWup : Nat
  rcvWnd : Nat
  rcvWscale : Nat

/-- What else the choice depends on, with the values of `serval_tcp_space` and
`serval_tcp_full_space`. -/
structure RcvSpace where
  free : Int
  full : Nat
  windowClamp : Nat
  rcvMss : Nat
  rcvSsthresh : Nat
  advmss : Nat
  memoryPressure : Bool
  positive : 0 < full ∧ 0 < windowClamp ∧ 0 < rcvMss
  bounded : rcvSsthresh ≤ 2 ^ 30

def servalTcpReceiveWindow (tp : RcvSock) : Nat :=
  ((tp.rcvWup + tp.rcvWnd - tp.rcvNxt : Int).bmod (2 ^ 32)).toNat

/-- `ALIGN`, and the rounding of a window that will be scaled. -/
def align (n unit : Nat) : Nat := unit * (n ⌈/⌉ unit)

/-- `__serval_tcp_select_window` -/
def selectWindow (sp : RcvSpace) (tp : RcvSock) : Nat :=
  let full := min sp.windowClamp sp.full
  let mss := min sp.rcvMss full
  let low := sp.free < full / 2
  let rcvSsthresh := if low ∧ sp.memoryPressure then min sp.rcvSsthresh (4 * sp.advmss)
    else sp.rcvSsthresh
  let free := min sp.free.toNat rcvSsthresh
  if low ∧ sp.free < mss then 0
  else if tp.rcvWscale ≠ 0 then align free (2 ^ tp.rcvWscale)
  else if tp.rcvWnd + mss ≤ free ∨ tp.rcvWnd > free then free / mss * mss
  else if mss = full ∧ free > tp.rcvWnd + full / 2 then free
  else tp.rcvWnd

/-- The window that is kept: what was offered is not taken back. -/
def keptWindow (sp : RcvSpace) (tp : RcvSock) : Nat :=
  if selectWindow sp tp < servalTcpReceiveWindow tp then
    align (servalTcpReceiveWindow tp) (2 ^ tp.rcvWscale)
  else selectWindow sp tp

def maxWindow (signedWindows : Bool) (scale : Nat) : Nat :=
  if scale = 0 ∧ signedWindows then 32767 else 65535

def servalTcpSelectWindow (signedWindows : Bool) (sp : RcvSpace) (tp : RcvSock) : Nat × RcvSock :=
  let unit := 2 ^ tp.rcvWscale
  (min (keptWindow sp tp) (unit * maxWindow signedWindows tp.rcvWscale) / unit,
    { tp with rcvWnd := keptWindow sp tp, rcvWup := tp.rcvNxt })

/-! ## Runs -/

structure Segment where
  arrived : Nat
  space : RcvSpace
  few : arrived ≤ 2 ^ 30

/-- The offers come with the number of bytes that had arrived, the latest first. -/
structure WindowRun where
  tp : RcvSock
  nxt : Nat
  offers : List (Nat × Nat)

def windowStep (signedWindows : Bool) (run : WindowRun) (seg : Segment) : WindowRun :=
  let tp := { run.tp with rcvNxt := (run.tp.rcvNxt + seg.arrived) % 2 ^ 32 }
  let nxt := run.nxt + seg.arrived
  let sent := servalTcpSelectWindow signedWindows seg.space tp
  ⟨sent.2, nxt, (nxt, sent.1) :: run.offers⟩

def rightEdge (scale : Nat) (offer : Nat × Nat) : Nat := offer.1 + 2 ^ scale * offer.2

/-- A window that can be scaled, and is small enough for differences to have a sign. -/
def Scalable (scale window : Nat) : Prop := 2 ^ scale ∣ window ∧ window ≤ 2 ^ 30 + 2 ^ 14

theorem align_scalable {n scale : Nat} (small : scale ≤ 14) (bounded : n ≤ 2 ^ 30 + 2 ^ 14) :
    n ≤ align n (2 ^ scale) ∧ Scalable scale (align n (2 ^ scale)) := by
  have positive := Nat.two_pow_pos scale
  obtain ⟨k, limit⟩ : 2 ^ scale ∣ 2 ^ 30 + 2 ^ 14 :=
    Nat.dvd_add (Nat.pow_dvd_pow 2 (by omega)) (Nat.pow_dvd_pow 2 small)
  rw [Scalable, limit]
  rw [limit, ← ceilDiv_le_iff_le_mul positive] at bounded
  exact ⟨le_smul_ceilDiv positive, Nat.dvd_mul_right _ _, Nat.mul_le_mul_left _ bounded⟩

variable {signedWindows : Bool} {scale : Nat} {tp : RcvSock} {run : WindowRun}

private theorem receiveWindow_eq {arrived : Nat} (fresh : tp.rcvWup = tp.rcvNxt)
    (small : tp.rcvWnd ≤ 2 ^ 30 + 2 ^ 14) (few : arrived ≤ 2 ^ 30) :
    servalTcpReceiveWindow { tp with rcvNxt := (tp.rcvNxt + arrived) % 2 ^ 32 } =
      tp.rcvWnd - arrived := by
  have same : (tp.rcvWup + tp.rcvWnd - ((tp.rcvNxt + arrived) % 2 ^ 32 : Nat) : Int) =
      (tp.rcvWnd - arrived : Int) + (2 ^ 32 : Nat) * ((tp.rcvNxt + arrived) / 2 ^ 32 : Nat) := by
    omega
  simp only [servalTcpReceiveWindow, same, Int.add_mul_bmod_self_left]
  rw [Int.bmod_eq_of_le] <;> omega

private theorem selectWindow_scalable (sp : RcvSpace) (scale : tp.rcvWscale ≤ 14)
    (small : tp.rcvWnd ≤ 2 ^ 30 + 2 ^ 14) : Scalable tp.rcvWscale (selectWindow sp tp) := by
  have bounded := sp.bounded
  unfold selectWindow
  extract_lets full mss low rcvSsthresh free
  have limit : free ≤ 2 ^ 30 := by
    refine le_trans (min_le_right _ _) ?_
    unfold rcvSsthresh
    split <;> omega
  have whole := Nat.div_mul_le_self free mss
  split_ifs with nothing scaled
  · exact ⟨Nat.dvd_zero _, Nat.zero_le _⟩
  · exact (align_scalable scale (by omega)).2
  all_goals
    rw [not_not.mp scaled]
    exact ⟨Nat.one_dvd _, by omega⟩

theorem keptWindow_scalable (sp : RcvSpace) (left : servalTcpReceiveWindow tp ≤ 2 ^ 30 + 2 ^ 14)
    (scale : tp.rcvWscale ≤ 14) (small : tp.rcvWnd ≤ 2 ^ 30 + 2 ^ 14) :
    servalTcpReceiveWindow tp ≤ keptWindow sp tp ∧ Scalable tp.rcvWscale (keptWindow sp tp) := by
  unfold keptWindow
  split_ifs with less
  · exact align_scalable scale left
  · exact ⟨Nat.le_of_not_lt less, selectWindow_scalable sp scale small⟩

/-- What holds behind each segment. -/
structure Offered (signedWindows : Bool) (scale : Nat) (run : WindowRun) : Prop where
  same : run.tp.rcvWscale = scale
  fresh : run.tp.rcvWup = run.tp.rcvNxt
  small : run.tp.rcvWnd ≤ 2 ^ 30 + 2 ^ 14
  edge : ∀ offer ∈ run.offers, rightEdge scale offer ≤
    run.nxt + min run.tp.rcvWnd (2 ^ scale * maxWindow signedWindows scale)
  ordered : run.offers.Pairwise fun later earlier => rightEdge scale earlier ≤ rightEdge scale later
  fits : ∀ offer ∈ run.offers, offer.2 < 2 ^ 16

private theorem Offered.step (small : scale ≤ 14) (offered : Offered signedWindows scale run)
    (seg : Segment) : Offered signedWindows scale (windowStep signedWindows run seg) := by
  obtain ⟨rfl, fresh, bounded, edge, ordered, fits⟩ := offered
  have left := receiveWindow_eq fresh bounded seg.few
  have kept := keptWindow_scalable seg.space (left.trans_le ((Nat.sub_le ..).trans bounded))
    small bounded
  simp only [windowStep, servalTcpSelectWindow]
  generalize keptWindow seg.space _ = window at kept ⊢
  obtain ⟨covers, ⟨k, rfl⟩, bounded'⟩ := kept
  rw [left] at covers
  simp only at covers ⊢
  -- Both the window and its limit are multiples of the unit.
  rw [Nat.mul_min_mul_left, Nat.mul_div_cancel_left _ (Nat.two_pow_pos _)]
  have reaches : ∀ offer ∈ run.offers, rightEdge run.tp.rcvWscale offer ≤ run.nxt + seg.arrived +
      2 ^ run.tp.rcvWscale * min k (maxWindow signedWindows run.tp.rcvWscale) := by
    intro offer member
    have before := edge offer member
    rw [← Nat.mul_min_mul_left]
    omega
  have sixteen : maxWindow signedWindows run.tp.rcvWscale < 2 ^ 16 := by
    unfold maxWindow
    split <;> decide
  refine ⟨rfl, rfl, bounded', ?_, List.pairwise_cons.mpr ⟨reaches, ordered⟩, ?_⟩
  · rw [Nat.mul_min_mul_left]
    rintro offer (_ | ⟨_, member⟩)
    · exact le_rfl
    · exact reaches offer member
  · rintro offer (_ | ⟨_, member⟩)
    · exact (min_le_right _ _).trans_lt sixteen
    · exact fits offer member

/-- Whatever arrives and however the buffer fills, the right edge of the window in a segment is
never to the left of that in an earlier one, and the window fits its field. -/
theorem windowRun_neverShrinks (signedWindows : Bool) (nxt : Nat) (tp : RcvSock)
    (scale : tp.rcvWscale ≤ 14) (fresh : tp.rcvWup = tp.rcvNxt) (small : tp.rcvWnd ≤ 2 ^ 30)
    (segments : List Segment) :
    let offers := (segments.foldl (windowStep signedWindows) ⟨tp, nxt, []⟩).offers
    (offers.Pairwise fun later earlier =>
        rightEdge tp.rcvWscale earlier ≤ rightEdge tp.rcvWscale later) ∧
      ∀ offer ∈ offers, offer.2 < 2 ^ 16 := by
  have final : Offered signedWindows tp.rcvWscale
      (segments.foldl (windowStep signedWindows) ⟨tp, nxt, []⟩) := by
    refine List.foldlRecOn segments _ ?_ fun _ offered seg _ => offered.step scale seg
    exact ⟨rfl, fresh, small.trans (by decide), by simp, .nil, by simp⟩
  exact ⟨final.ordered, final.fits⟩

def sampleSegment (arrived : Fin 9000) (free : Int) : Segment where
  arrived := arrived
  space := ⟨free, 87380, 87380, 1448, 65535, 1460, false, by decide, by decide⟩
  few := by omega

/-- The buffer fills up, so that what is left of the window is offered again. -/
theorem windowRun_neverShrinks_sample :
    let run := [sampleSegment 0 60000, sampleSegment 8000 900].foldl (windowStep false)
      ⟨⟨5, 5, 5840, 7⟩, 0, []⟩
    run.offers = [(8000, 407), (0, 469)] ∧
      run.offers.Pairwise fun later earlier => rightEdge 7 earlier ≤ rightEdge 7 later :=
  ⟨by decide, (windowRun_neverShrinks false 0 ⟨5, 5, 5840, 7⟩ (by decide) rfl (by decide) _).1⟩

end Serval.Tcp
