import Mathlib.Data.Nat.Bitwise
import Mathlib.Data.List.Basic
import Mathlib.Tactic.IntervalCases

/-!
# Byte strings as bit strings

The bits of a byte string are numbered from the most significant bit of the
first byte on. `takeBits` reads the first bits of a byte string, and
`packBits` writes a bit string into as few bytes as hold it, with zero bits
after the last one.
-/

namespace Serval.Support

/-- Bit `i` of a byte, counted from its most significant end. -/
def byteBit (byte : UInt8) (i : Nat) : Bool := byte.toNat.testBit (7 - i)

/-- Bit `i` of a byte string. Past its end every bit is zero. -/
def bitAt (bytes : List UInt8) (i : Nat) : Bool := byteBit (bytes.getD (i / 8) 0) (i % 8)

def takeBits (bytes : List UInt8) (n : Nat) : List Bool := (List.range n).map (bitAt bytes)

def byteOf (bit : Nat → Bool) : UInt8 :=
  UInt8.ofNat
    (128 * (bit 0).toNat + 64 * (bit 1).toNat + 32 * (bit 2).toNat +
      16 * (bit 3).toNat + 8 * (bit 4).toNat + 4 * (bit 5).toNat +
      2 * (bit 6).toNat + (bit 7).toNat)

def packBits (bits : List Bool) : List UInt8 :=
  (List.range ((bits.length + 7) / 8)).map fun j =>
    byteOf fun i => bits.getD (8 * j + i) false

variable (bytes : List UInt8) (bits : List Bool) {n : Nat}

@[simp]
theorem takeBits_length (n : Nat) : (takeBits bytes n).length = n := by
  simp [takeBits]

@[simp]
theorem takeBits_zero : takeBits bytes 0 = [] := rfl

theorem takeBits_succ (n : Nat) : takeBits bytes (n + 1) = takeBits bytes n ++ [bitAt bytes n] := by
  simp [takeBits, List.range_succ]

theorem takeBits_take {m : Nat} (within : m ≤ n) :
    (takeBits bytes n).take m = takeBits bytes m := by
  rw [takeBits, ← List.map_take, List.take_range, Nat.min_eq_left within, takeBits]

theorem takeBits_getD {i : Nat} (within : i < n) :
    (takeBits bytes n).getD i false = bitAt bytes i := by
  simp [takeBits, List.getD, within]

theorem takeBits_isPrefixOf {m : Nat} (within : m ≤ n) : takeBits bytes m <+: takeBits bytes n := by
  rw [← takeBits_take bytes within]
  exact List.take_prefix m (takeBits bytes n)

theorem eq_takeBits_of_prefix {bytes : List UInt8} {bits : List Bool}
    (initial : bits <+: takeBits bytes n) :
    bits.length ≤ n ∧ bits = takeBits bytes bits.length := by
  have short : bits.length ≤ n := by simpa using initial.length_le
  refine ⟨short, ?_⟩
  rw [← takeBits_take bytes short]
  exact List.prefix_iff_eq_take.mp initial

/-! ## Single bytes -/

theorem byteBit_byteOf (bit : Nat → Bool) {i : Nat} (small : i < 8) :
    byteBit (byteOf bit) i = bit i := by
  have closed : ∀ b0 b1 b2 b3 b4 b5 b6 b7 : Bool, (128 * b0.toNat + 64 * b1.toNat + 32 * b2.toNat +
          16 * b3.toNat + 8 * b4.toNat + 4 * b5.toNat +
          2 * b6.toNat + b7.toNat) < 256 ∧
        ∀ j : Fin 8, Nat.testBit (128 * b0.toNat + 64 * b1.toNat + 32 * b2.toNat +
            16 * b3.toNat + 8 * b4.toNat + 4 * b5.toNat +
            2 * b6.toNat + b7.toNat) (7 - j.val) =
              [b0, b1, b2, b3, b4, b5, b6, b7].getD j.val false := by
    decide
  obtain ⟨below, bits⟩ := closed (bit 0) (bit 1) (bit 2) (bit 3) (bit 4) (bit 5) (bit 6) (bit 7)
  have here := bits ⟨i, small⟩
  unfold byteBit byteOf
  rw [UInt8.toNat_ofNat_of_lt' below, here]
  interval_cases i <;> rfl

theorem byte_ext {left right : UInt8} (same : ∀ i, i < 8 → byteBit left i = byteBit right i) :
    left = right := by
  apply UInt8.toNat_inj.mp
  apply Nat.eq_of_testBit_eq
  intro k
  by_cases small : k < 8
  · have here := same (7 - k) (by omega)
    unfold byteBit at here
    rwa [show 7 - (7 - k) = k by omega] at here
  · have big : 2 ^ 8 ≤ 2 ^ k := Nat.pow_le_pow_right (by decide) (by omega)
    rw [Nat.testBit_lt_two_pow (Nat.lt_of_lt_of_le left.toNat_lt big),
      Nat.testBit_lt_two_pow (Nat.lt_of_lt_of_le right.toNat_lt big)]

theorem byteBit_eq_mask (byte : UInt8) (i : Nat) :
    ((byte &&& UInt8.ofNat (1 <<< (7 - i))) != 0) = byteBit byte i := by
  have small : 2 ^ (7 - i) < 256 := by
    have : 2 ^ (7 - i) ≤ 2 ^ 7 := Nat.pow_le_pow_right (by decide) (by omega)
    omega
  have masked : (byte &&& UInt8.ofNat (1 <<< (7 - i))).toNat =
        (byteBit byte i).toNat * 2 ^ (7 - i) := by
    rw [UInt8.toNat_and, Nat.one_shiftLeft, UInt8.toNat_ofNat_of_lt' small, Nat.and_two_pow]
    rfl
  cases bit : byteBit byte i with
  | false =>
    rw [bit] at masked
    have zero : byte &&& UInt8.ofNat (1 <<< (7 - i)) = 0 := by
      apply UInt8.toNat_inj.mp
      simpa using masked
    simp [zero]
  | true =>
    rw [bit] at masked
    simp only [bne_iff_ne, ne_eq]
    intro zero
    rw [zero] at masked
    have positive : 0 < 2 ^ (7 - i) := Nat.two_pow_pos _
    simp only [UInt8.toNat_zero, Bool.toNat_true, Nat.one_mul] at masked
    omega

theorem byteBit_and (left right : UInt8) (i : Nat) :
    byteBit (left &&& right) i = (byteBit left i && byteBit right i) := by
  simp [byteBit, UInt8.toNat_and, Nat.testBit_and]

/-- The mask with the `count` most significant bits set. -/
def highMask (count : Nat) : UInt8 :=
  (List.range count).foldl
    (fun mask i => mask ||| UInt8.ofNat (1 <<< (7 - i))) 0

theorem byteBit_highMask {count i : Nat} (few : count < 8) (small : i < 8) :
    byteBit (highMask count) i = decide (i < count) := by
  interval_cases count <;> interval_cases i <;> decide

/-! ## Packed bit strings -/

@[simp]
theorem packBits_length : (packBits bits).length = (bits.length + 7) / 8 := by
  simp [packBits]

theorem bitAt_packBits (i : Nat) : bitAt (packBits bits) i = bits.getD i false := by
  unfold bitAt
  by_cases inside : i / 8 < (bits.length + 7) / 8
  · have byteHere : (packBits bits).getD (i / 8) 0 =
          byteOf fun k => bits.getD (8 * (i / 8) + k) false := by
      simp [packBits, List.getD, inside]
    rw [byteHere, byteBit_byteOf _ (Nat.mod_lt i (by decide)), Nat.div_add_mod]
  have long : bits.length ≤ i := by omega
  have absent : (packBits bits).getD (i / 8) 0 = 0 := by
    apply List.getD_eq_default
    simpa using Nat.le_of_not_lt inside
  rw [absent, List.getD_eq_default _ _ long]
  simp [byteBit]

theorem bytes_ext {left right : List UInt8} (sameLength : left.length = right.length)
    (same : ∀ i, i < 8 * left.length → bitAt left i = bitAt right i) :
    left = right := by
  apply List.ext_getElem sameLength
  intro j leftBound rightBound
  apply byte_ext
  intro i small
  have here := same (8 * j + i) (by omega)
  unfold bitAt at here
  rw [show (8 * j + i) / 8 = j by omega, show (8 * j + i) % 8 = i by omega] at here
  simpa [List.getD, leftBound, rightBound] using here

theorem takeBits_packBits : takeBits (packBits bits) bits.length = bits := by
  apply List.ext_getElem (by simp)
  intro i leftBound rightBound
  have here := bitAt_packBits bits i
  simp only [takeBits, List.getElem_map, List.getElem_range, here]
  simp [List.getD, rightBound]

theorem takeBits_packBits_pad (within : bits.length ≤ n) : takeBits (packBits bits) n =
      bits ++ List.replicate (n - bits.length) false := by
  apply List.ext_getElem
  · simp [within]
  · intro i leftBound rightBound
    have here := bitAt_packBits bits i
    simp only [takeBits, List.getElem_map, List.getElem_range, here]
    by_cases inside : i < bits.length
    · simp [List.getD, inside]
    · simp [List.getD, Nat.le_of_not_lt inside]

theorem takeBits_append (left right : List UInt8) (within : n ≤ 8 * left.length) :
    takeBits (left ++ right) n = takeBits left n := by
  apply List.map_congr_left
  intro i inside
  rw [List.mem_range] at inside
  unfold bitAt
  rw [List.getD_append _ _ _ _ (by omega)]

theorem bitAt_append_zeros (count i : Nat) :
    bitAt (bytes ++ List.replicate count 0) i = bitAt bytes i := by
  unfold bitAt
  congr 1
  by_cases inside : i / 8 < bytes.length
  · rw [List.getD_append _ _ _ _ inside]
  have outside := Nat.le_of_not_lt inside
  rw [List.getD_append_right _ _ _ _ outside, List.getD_eq_default _ _ outside]
  simp only [List.getD, List.getElem?_replicate]
  split
  · rfl
  · rfl

end Serval.Support
