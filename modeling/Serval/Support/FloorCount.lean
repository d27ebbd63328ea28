import Mathlib.Algebra.Order.Field.Rat
import Mathlib.Data.Finset.Card
import Mathlib.Data.Nat.Basic
import Mathlib.Tactic.Linarith
import Mathlib.Tactic.Ring

/-!
# Counting scaled samples

A value `r` in `[0, R]` is scaled to `⌊r · N / R⌋`. How many of them fall at
or below a fraction `S / W` of the range: `R · S / W` up to an error between
zero and `3 / 2`, when `N` is at least twice `R`.
-/

namespace Serval.Support

/-- The values in `[0, R]` whose scaled value, times `W`, is at most
`S · N`. -/
def scaledBelow (N R W S : Nat) : Finset Nat :=
  (Finset.range (R + 1)).filter fun r => r * N / R * W ≤ S * N

variable {N R W S : Nat}

theorem scaledBelow_mono {S' : Nat} (grows : S ≤ S') :
    scaledBelow N R W S ⊆ scaledBelow N R W S' := by
  intro r
  simp only [scaledBelow, Finset.mem_filter]
  intro below
  exact ⟨below.1, below.2.trans (Nat.mul_le_mul_right N grows)⟩

theorem scaledBelow_eq_range (positiveN : 0 < N) (positiveR : 0 < R) (positiveW : 0 < W) :
    scaledBelow N R W S = Finset.range
        (min (R + 1) (((S * N / W + 1) * R + (N - 1)) / N)) := by
  ext r
  simp only [scaledBelow, Finset.mem_filter, Finset.mem_range, Nat.lt_min]
  refine and_congr_right fun _ => ?_
  have ceiling : r < ((S * N / W + 1) * R + (N - 1)) / N ↔ r * N < (S * N / W + 1) * R := by
    rw [← Nat.succ_le_iff, Nat.le_div_iff_mul_le positiveN, Nat.succ_mul]
    omega
  rw [ceiling, ← Nat.le_div_iff_mul_le positiveW, ← Nat.div_lt_iff_lt_mul positiveR,
    Nat.lt_succ_iff]

/-- The number of values is `(⌊S · N / W⌋ + 1) · R / N`, rounded up. -/
theorem card_scaledBelow_mul (fine : 2 * R ≤ N) (positiveR : 0 < R) (positiveW : 0 < W)
    (within : S ≤ W) :
    (S * N / W + 1) * R ≤ (scaledBelow N R W S).card * N ∧
      (scaledBelow N R W S).card * N < (S * N / W + 1) * R + N := by
  have positiveN : 0 < N := by omega
  rw [scaledBelow_eq_range positiveN positiveR positiveW, Finset.card_range]
  have small : S * N / W ≤ N := Nat.div_le_of_le_mul (Nat.mul_le_mul_right N within)
  have most : (S * N / W + 1) * R ≤ (R + 1) * N := by
    calc
      (S * N / W + 1) * R ≤ (N + 1) * R := by
        gcongr
      _ = R * N + R := by
        ring
      _ ≤ R * N + N := by
        omega
      _ = (R + 1) * N := by
        ring
  generalize (S * N / W + 1) * R = X at most ⊢
  constructor
  · rcases Nat.le_total (R + 1) ((X + (N - 1)) / N) with capped | free
    · rw [Nat.min_eq_left capped]
      exact most
    · rw [Nat.min_eq_right free]
      have ceiling := (Nat.div_lt_iff_lt_mul positiveN).mp (Nat.lt_succ_self ((X + (N - 1)) / N))
      rw [Nat.succ_mul] at ceiling
      omega
  · calc
      min (R + 1) ((X + (N - 1)) / N) * N ≤ (X + (N - 1)) / N * N :=
        Nat.mul_le_mul_right N (Nat.min_le_right _ _)
      _ ≤ X + (N - 1) := Nat.div_mul_le_self _ _
      _ < X + N := by
        omega

/-- A fraction of the range contains more than its share of the values, but
by less than `3 / 2`. -/
theorem card_scaledBelow (fine : 2 * R ≤ N) (positiveR : 0 < R) (positiveW : 0 < W)
    (within : S ≤ W) :
    R * S < (scaledBelow N R W S).card * W ∧
      2 * ((scaledBelow N R W S).card * W) < 2 * (R * S) + 3 * W := by
  obtain ⟨low, high⟩ := card_scaledBelow_mul fine positiveR positiveW within
  generalize (scaledBelow N R W S).card = c at low high ⊢
  have quotientLow : S * N / W * W ≤ S * N := Nat.div_mul_le_self _ _
  have quotientHigh : S * N < (S * N / W + 1) * W :=
    (Nat.div_lt_iff_lt_mul positiveW).mp (Nat.lt_succ_self _)
  generalize S * N / W = Q at low high quotientLow quotientHigh
  constructor
  · have factored : R * S * N < c * W * N := by
      calc
        R * S * N = S * N * R := by
          ring
        _ < (Q + 1) * W * R := Nat.mul_lt_mul_of_pos_right quotientHigh positiveR
        _ = (Q + 1) * R * W := by
          ring
        _ ≤ c * N * W := Nat.mul_le_mul_right W low
        _ = c * W * N := by
          ring
    exact Nat.lt_of_mul_lt_mul_right factored
  · have scaled : c * N * W < S * N * R + R * W + N * W := by
      calc
        c * N * W < ((Q + 1) * R + N) * W := Nat.mul_lt_mul_of_pos_right high positiveW
        _ = Q * W * R + R * W + N * W := by
          ring
        _ ≤ S * N * R + R * W + N * W := by
          gcongr
    have factored : 2 * (c * W) * N < (2 * (R * S) + 3 * W) * N := by
      calc
        2 * (c * W) * N = 2 * (c * N * W) := by
          ring
        _ < 2 * (S * N * R + R * W + N * W) := by
          omega
        _ = 2 * (R * S) * N + 2 * R * W + 2 * W * N := by
          ring
        _ ≤ 2 * (R * S) * N + N * W + 2 * W * N := by
          gcongr
        _ = (2 * (R * S) + 3 * W) * N := by
          ring
    exact Nat.lt_of_mul_lt_mul_right factored

end Serval.Support
