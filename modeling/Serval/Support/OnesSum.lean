import Serval.Support.Bytes

/-!
# One's complement sums

Adding 16-bit words with the carry out of the top added back in at the bottom
computes a number modulo 65535, with one twist: a sum of words that are not all
zero is never zero. Bytes are summed by the number they spell, since moving a
word up by sixteen bits does not change its sum.
-/

namespace Serval.Support

structure SameSum (a b : Nat) : Prop where
  mod : a % 65535 = b % 65535
  zero : a = 0 ↔ b = 0

namespace SameSum

@[refl]
theorem refl (a : Nat) : SameSum a a := ⟨rfl, Iff.rfl⟩

variable {a b : Nat}

@[symm]
theorem symm (same : SameSum a b) : SameSum b a := ⟨same.mod.symm, same.zero.symm⟩

@[trans]
theorem trans {c : Nat} (first : SameSum a b) (second : SameSum b c) :
    SameSum a c :=
  ⟨first.mod.trans second.mod, first.zero.trans second.zero⟩

instance : Trans SameSum SameSum SameSum := ⟨trans⟩

theorem add {c d : Nat} (left : SameSum a b) (right : SameSum c d) : SameSum (a + c) (b + d) := by
  have leftZero := left.zero
  have rightZero := right.zero
  constructor
  · exact Nat.ModEq.add left.mod right.mod
  · omega

theorem add_left (c : Nat) (same : SameSum a b) : SameSum (c + a) (c + b) := (refl c).add same

theorem mul_left (c : Nat) (same : SameSum a b) : SameSum (c * a) (c * b) := by
  constructor
  · exact Nat.ModEq.mul_left c same.mod
  · rw [Nat.mul_eq_zero, Nat.mul_eq_zero, same.zero]

theorem shift (a : Nat) : SameSum (65536 * a) a := by
  constructor <;> omega

theorem shift_words (count a : Nat) : SameSum (256 ^ (2 * count) * a) a := by
  induction count with
  | zero => rw [Nat.pow_zero, Nat.one_mul]
  | succ count ih =>
    have up : 256 ^ (2 * (count + 1)) * a = 65536 * (256 ^ (2 * count) * a) := by
      rw [Nat.mul_succ, Nat.pow_add, Nat.mul_comm (256 ^ (2 * count)), Nat.mul_assoc]
    rw [up]
    exact (shift _).trans ih

theorem fold (a : Nat) : SameSum a (a % 65536 + a / 65536) := by
  constructor <;> omega

/-- Adding two 32-bit numbers with the carry added back in. The carry shows
in the sum, which is then below what was added; adding it cannot carry
again. -/
theorem endAround (a b : UInt32) : SameSum (a.toNat + b.toNat)
        ((a + b).toNat + (if b > a + b then (1 : UInt32) else 0).toNat) ∧
      (a + b).toNat + (if b > a + b then (1 : UInt32) else 0).toNat < 2 ^ 32 := by
  have small := a.toNat_lt
  have small' := b.toNat_lt
  by_cases carry : a.toNat + b.toNat < 2 ^ 32
  · have sum : (a + b).toNat = a.toNat + b.toNat := by rw [UInt32.toNat_add, Nat.mod_eq_of_lt carry]
    have above : ¬ b > a + b := by
      intro below
      have := UInt32.lt_iff_toNat_lt.mp below
      omega
    rw [if_neg above, sum]
    exact ⟨refl _, carry⟩
  · have sum : (a + b).toNat = a.toNat + b.toNat - 2 ^ 32 := by
      rw [UInt32.toNat_add]
      omega
    have below : b > a + b := by
      apply UInt32.lt_iff_toNat_lt.mpr
      omega
    rw [if_pos below, UInt32.toNat_one]
    refine ⟨⟨?_, ?_⟩, ?_⟩ <;> omega

theorem eq_of_le (same : SameSum a b) (word : a ≤ 65535) (word' : b ≤ 65535) : a = b := by
  have mod := same.mod
  have zero := same.zero
  omega

end SameSum

theorem sameSum_leNat_append {first : List UInt8} {count : Nat} (words : first.length = 2 * count)
    (second : List UInt8) :
    SameSum (leNat (first ++ second)) (leNat first + leNat second) := by
  rw [leNat_append, words]
  exact (SameSum.shift_words count _).add_left _

theorem sameSum_leNat_take {bytes : List UInt8} {count : Nat} (inside : 2 * count ≤ bytes.length)
    (more : Nat) :
    SameSum (leNat (bytes.take (2 * count + more)))
      (leNat (bytes.take (2 * count)) + leNat ((bytes.drop (2 * count)).take more)) := by
  rw [List.take_add]
  exact sameSum_leNat_append (List.length_take_of_le inside) _

end Serval.Support
