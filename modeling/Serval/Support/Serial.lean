import Mathlib.Algebra.Group.Nat.Defs
import Mathlib.Data.Nat.Basic
import Mathlib.Data.UInt

/-!
# Numbers that wrap around

Serial numbers of 32 bits, compared by the sign of their difference, and
counters, which hold a count modulo their width.
-/

namespace Serval.Support

def before (seq1 seq2 : UInt32) : Bool := 2 ^ 31 ≤ (seq1 - seq2).toNat

def after (seq2 seq1 : UInt32) : Bool := before seq1 seq2

theorem before_self (seq : UInt32) : before seq seq = false := by
  simp [before]

theorem before_succ (seq : UInt32) : before seq (seq + 1) = true := by
  simp only [before, UInt32.toNat_sub, UInt32.toNat_add, UInt32.toNat_one, decide_eq_true_eq]
  omega

variable {seq : UInt32}

/-- The successor of a number that is not before is not the other. -/
theorem succ_ne_of_not_before {next : UInt32}
    (valid : before seq next = false) : seq + 1 ≠ next := by
  rintro rfl
  rw [before_succ] at valid
  cases valid

variable {base : UInt32}

/-- A number that is neither before the first nor after the last of a window
lies in it, wherever one starts to count. -/
theorem sub_window {first last : UInt32} (order : (first - base).toNat ≤ (last - base).toNat)
    (notOld : before seq first = false) (notNew : after seq last = false) :
    (first - base).toNat ≤ (seq - base).toNat ∧ (seq - base).toNat ≤ (last - base).toNat := by
  simp only [after, before, decide_eq_false_iff_not, UInt32.toNat_sub] at *
  have := first.toNat_lt
  have := seq.toNat_lt
  omega

theorem after_of_sub (moved : seq ≠ base) (near : (seq - base).toNat < 2 ^ 31) :
    after seq base = true := by
  have apart : seq.toNat ≠ base.toNat := fun same =>
    moved (UInt32.toNat.inj same)
  simp only [after, before, decide_eq_true_eq, UInt32.toNat_sub] at *
  have := base.toNat_lt
  have := seq.toNat_lt
  omega

/-- Among numbers in the window from `base` on, what is not before does not
come first. -/
theorem le_of_not_before {first second : UInt32} (notBefore : before second first = false)
    (near : (first - base).toNat < 2 ^ 31)
    (near' : (second - base).toNat < 2 ^ 31) :
    (first - base).toNat ≤ (second - base).toNat := by
  simp only [before, decide_eq_false_iff_not, UInt32.toNat_sub] at *
  have := first.toNat_lt
  omega

theorem not_before_of_le {base first second : UInt32}
    (order : (first - base).toNat ≤ (second - base).toNat)
    (near : (second - base).toNat < 2 ^ 31) :
    before second first = false := by
  simp only [before, decide_eq_false_iff_not, UInt32.toNat_sub] at *
  have := first.toNat_lt
  omega

theorem toNat_sub_eq {base first second : UInt32} {n : Nat}
    (later : (second - base).toNat = (first - base).toNat + n) :
    (second - first).toNat = n := by
  simp only [UInt32.toNat_sub] at *
  have := first.toNat_lt
  omega

/-- The successor of a number that is not before is at most half the circle
ahead. -/
theorem succ_sub_of_not_before {next : UInt32} (valid : before seq next = false) :
    1 ≤ (seq + 1 - next).toNat ∧ (seq + 1 - next).toNat ≤ 2 ^ 31 := by
  simp only [before, decide_eq_false_iff_not, UInt32.toNat_sub, UInt32.toNat_add,
    UInt32.toNat_one] at *
  omega

theorem toNat_succ_sub (room : (seq - base).toNat < 2 ^ 32 - 1) :
    (seq + 1 - base).toNat = (seq - base).toNat + 1 := by
  simp only [UInt32.toNat_sub, UInt32.toNat_add, UInt32.toNat_one] at *
  omega

theorem zero_before_iff (next : UInt32) :
    before 0 next = false ↔ next = 0 ∨ 2 ^ 31 < next.toNat := by
  simp only [before, decide_eq_false_iff_not, UInt32.toNat_sub, ← UInt32.toNat_inj,
    UInt32.toNat_zero]
  omega

/-! ## Counters -/

theorem ofNat_succ (count : Nat) : UInt32.ofNat count + 1 = UInt32.ofNat (count + 1) := by
  rw [UInt32.ofNat_add]
  rfl

theorem ofNat_succ_sub_one (count : Nat) : UInt32.ofNat (count + 1) - 1 = UInt32.ofNat count := by
  simp

theorem ofNat_add_sub_ofNat (left gone : Nat) :
    UInt32.ofNat (gone + left) - UInt32.ofNat gone = UInt32.ofNat left := by
  rw [UInt32.ofNat_add]
  exact add_sub_cancel_left _ _

end Serval.Support
