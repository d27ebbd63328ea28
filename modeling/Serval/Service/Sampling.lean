import Mathlib.Algebra.Order.Field.Basic
import Mathlib.Tactic.FieldSimp
import Serval.Support.FloorCount
import Serval.Service.Entry

/-!
# Weighted anycast sampling

`service_iter_init` draws a sample and walks the first set until the running
sum of weights reaches it.
-/

namespace Serval

open Serval.Support

def weightSum (targets : List Target) : Nat := (targets.map (·.weight.toNat)).sum

@[simp]
theorem weightSum_nil : weightSum [] = 0 := rfl

@[simp]
theorem weightSum_cons (t : Target) (rest : List Target) :
    weightSum (t :: rest) = t.weight.toNat + weightSum rest :=
  rfl

theorem toNat_sampleOf {random : Nat} (drawn : random ≤ RAND_MAX.toNat) (normalizer : UInt32) :
    (sampleOf (UInt64.ofNat random) normalizer).toNat =
      random * 2 ^ 32 / RAND_MAX.toNat * normalizer.toNat := by
  have limit : RAND_MAX.toNat = 2147483647 := rfl
  have small : normalizer.toNat < 2 ^ 32 := normalizer.toNat_lt
  have shifted : (UInt64.ofNat random <<< 32).toNat = random * 2 ^ 32 := by
    rw [UInt64.toNat_shiftLeft, UInt64.toNat_ofNat_of_lt' (by
      change _ < 2 ^ 64
      omega)]
    change random <<< 32 % 2 ^ 64 = _
    rw [Nat.shiftLeft_eq, Nat.mod_eq_of_lt (by omega)]
  have quotient : random * 2 ^ 32 / RAND_MAX.toNat ≤ 2 ^ 32 := by
    apply Nat.div_le_of_le_mul
    omega
  have product : random * 2 ^ 32 / RAND_MAX.toNat * normalizer.toNat < 2 ^ 64 := by
    calc
      random * 2 ^ 32 / RAND_MAX.toNat * normalizer.toNat
          ≤ 2 ^ 32 * (2 ^ 32 - 1) :=
        Nat.mul_le_mul quotient (by omega)
      _ < 2 ^ 64 := by
        decide
  unfold sampleOf
  rw [UInt64.toNat_mul, UInt64.toNat_div, shifted, UInt32.toNat_toUInt64, Nat.mod_eq_of_lt product]

variable {sumweight : UInt64} {total : Nat}

/-- The running sum keeps the low 32 bits of the sum of weights in its high
half. -/
theorem toNat_addWeight (before : sumweight.toNat = total % 2 ^ 32 * 2 ^ 32) (weight : UInt32) :
    (sumweight + (weight.toUInt64 <<< 32)).toNat = (total + weight.toNat) % 2 ^ 32 * 2 ^ 32 := by
  have small : weight.toNat < 2 ^ 32 := weight.toNat_lt
  have shifted : (weight.toUInt64 <<< 32).toNat = weight.toNat * 2 ^ 32 := by
    change weight.toNat <<< 32 % 2 ^ 64 = _
    rw [Nat.shiftLeft_eq, Nat.mod_eq_of_lt (by omega)]
  rw [UInt64.toNat_add]
  omega

/-! ## Where the walk stops -/

theorem selectFrom_suffix (sample sumweight : UInt64) (targets : List Target) :
    selectFrom sample sumweight targets <:+ targets := by
  induction targets generalizing sumweight with
  | nil => exact List.suffix_rfl
  | cons t rest ih =>
    unfold selectFrom
    simp only
    split
    · exact List.suffix_rfl
    · exact (ih _).trans (List.suffix_cons t rest)

/-- A sample that the last running sum reaches stops the walk at a target. -/
theorem selectFrom_ne_nil {sample : UInt64} {targets : List Target}
    (before : sumweight.toNat = total % 2 ^ 32 * 2 ^ 32)
    (nonempty : targets ≠ [])
    (reached : sample.toNat ≤ (total + weightSum targets) % 2 ^ 32 * 2 ^ 32) :
    selectFrom sample sumweight targets ≠ [] := by
  induction targets generalizing sumweight total with
  | nil => exact absurd rfl nonempty
  | cons t rest ih =>
    have after := toNat_addWeight before t.weight
    unfold selectFrom
    simp only
    split
    · simp
    rename_i missed
    cases rest with
    | nil =>
      exfalso
      apply missed
      rw [UInt64.le_iff_toNat_le, after]
      simpa using reached
    | cons next others =>
      refine ih after (by simp) ?_
      rwa [weightSum_cons, ← Nat.add_assoc] at reached

/-- Without a wrap, the walk stops at target `i` exactly when the sample lies
above the sum of the weights before it and not above the sum with it. -/
theorem selectFrom_eq_drop_iff {sample : UInt64} {targets : List Target}
    (before : sumweight.toNat = total * 2 ^ 32)
    (small : total + weightSum targets < 2 ^ 32) {i : Nat}
    (inside : i < targets.length) :
    selectFrom sample sumweight targets = targets.drop i ↔
      (i ≠ 0 → (total + weightSum (targets.take i)) * 2 ^ 32 < sample.toNat) ∧
      sample.toNat ≤ (total + weightSum (targets.take (i + 1))) * 2 ^ 32 := by
  induction targets generalizing sumweight total i with
  | nil => cases inside
  | cons t rest ih =>
    rw [weightSum_cons, ← Nat.add_assoc] at small
    have after : (sumweight + (t.weight.toUInt64 <<< 32)).toNat =
          (total + t.weight.toNat) * 2 ^ 32 := by
      have wrapped := toNat_addWeight (show sumweight.toNat = total % 2 ^ 32 * 2 ^ 32 by
            rw [before, Nat.mod_eq_of_lt (by omega)]) t.weight
      rwa [Nat.mod_eq_of_lt (by omega)] at wrapped
    have stops : sample ≤ sumweight + (t.weight.toUInt64 <<< 32) ↔
          sample.toNat ≤ (total + t.weight.toNat) * 2 ^ 32 := by
      rw [UInt64.le_iff_toNat_le, after]
    unfold selectFrom
    simp only [stops]
    by_cases here : sample.toNat ≤ (total + t.weight.toNat) * 2 ^ 32
    · rw [if_pos here]
      cases i with
      | zero => simpa using here
      | succ i =>
        constructor
        · intro same
          have lengths := congrArg List.length same
          simp only [List.length_cons, List.length_drop] at lengths
          omega
        · intro above
          have later := above.1 (by omega)
          rw [List.take_succ_cons, weightSum_cons] at later
          omega
    · rw [if_neg here]
      cases i with
      | zero =>
        constructor
        · intro same
          have shorter := (selectFrom_suffix sample
            (sumweight + (t.weight.toUInt64 <<< 32)) rest).length_le
          rw [same] at shorter
          simp at shorter
        · intro above
          exact absurd (by simpa using above.2) here
      | succ i =>
        rw [List.drop_succ_cons, ih after small (by simpa using inside)]
        simp only [List.take_succ_cons, weightSum_cons, ← Nat.add_assoc]
        refine and_congr_left fun _ => ?_
        constructor
        · intro above _
          cases i with
          | zero => simpa using here
          | succ i => exact above (by omega)
        · intro above _
          exact above (by omega)

/-! ## Sampling from an entry -/

section Anycast

variable {se : ServiceEntry} {set : TargetSet} {rest : List TargetSet}

theorem serviceIterInit_anycast (first : se.targetSet = set :: rest) (counted : se.count ≠ 0)
    (unicast : set.flags &&& SVSF_MULTICAST = 0) (random : UInt64) :
    serviceIterInit se .anycast random = (true, ⟨.anycast, none,
        some (selectFrom (sampleOf random set.normalizer) 0 set.list),
        none⟩) := by
  simp [serviceIterInit, first, counted, unicast]

/-- The product that the walk compares against never exceeds 64 bits, and the
last running sum reaches it. -/
theorem sample_reached {random : Nat} (drawn : random ≤ RAND_MAX.toNat)
    (normal : set.normalizer.toNat = weightSum set.list % 2 ^ 32) :
    (sampleOf (UInt64.ofNat random) set.normalizer).toNat ≤
      weightSum set.list % 2 ^ 32 * 2 ^ 32 := by
  have quotient : random * 2 ^ 32 / RAND_MAX.toNat ≤ 2 ^ 32 := by
    apply Nat.div_le_of_le_mul
    rw [Nat.mul_comm]
    exact Nat.mul_le_mul_left _ drawn
  rw [toNat_sampleOf drawn, normal, Nat.mul_comm]
  exact Nat.mul_le_mul_left _ quotient

def drawsOf (se : ServiceEntry) (set : TargetSet) (i : Nat) : Finset Nat :=
  (Finset.range (RAND_MAX.toNat + 1)).filter fun random =>
    (serviceIterInit se .anycast (UInt64.ofNat random)).2.pos = some (set.list.drop i)

variable {i : Nat}

theorem drawsOf_eq (first : se.targetSet = set :: rest)
    (counted : se.count ≠ 0) (unicast : set.flags &&& SVSF_MULTICAST = 0)
    (normal : set.normalizer.toNat = weightSum set.list % 2 ^ 32)
    (small : weightSum set.list < 2 ^ 32) (inside : i < set.list.length) :
    drawsOf se set i = scaledBelow (2 ^ 32) RAND_MAX.toNat (weightSum set.list)
          (weightSum (set.list.take (i + 1))) \
        (if i = 0 then ∅ else
          scaledBelow (2 ^ 32) RAND_MAX.toNat (weightSum set.list)
            (weightSum (set.list.take i))) := by
  ext random
  unfold drawsOf scaledBelow
  simp only [Finset.mem_filter, Finset.mem_sdiff, Finset.mem_range,
    serviceIterInit_anycast first counted unicast, Option.some.injEq]
  rw [and_assoc]
  refine and_congr_right fun drawn => ?_
  have sample : (sampleOf (UInt64.ofNat random) set.normalizer).toNat =
        random * 2 ^ 32 / RAND_MAX.toNat * weightSum set.list := by
    rw [toNat_sampleOf (Nat.lt_succ_iff.mp drawn), normal, Nat.mod_eq_of_lt small]
  have start : (0 : UInt64).toNat = 0 * 2 ^ 32 := rfl
  rw [selectFrom_eq_drop_iff start (by simpa using small) inside, sample, Nat.zero_add,
    Nat.zero_add, and_comm]
  refine and_congr_right fun _ => ?_
  by_cases zero : i = 0
  · simp [zero]
  · simp [zero, drawn]

theorem weightSum_take_succ {targets : List Target} (inside : i < targets.length) :
    weightSum (targets.take (i + 1)) = weightSum (targets.take i) + targets[i].weight.toNat := by
  unfold weightSum
  rw [List.take_succ_eq_append_getElem inside, List.map_append]
  simp

theorem weightSum_take_le (targets : List Target) (i : Nat) :
    weightSum (targets.take i) ≤ weightSum targets := by
  conv_rhs => rw [← List.take_append_drop i targets]
  unfold weightSum
  rw [List.map_append, List.sum_append]
  exact Nat.le_add_right _ _

theorem card_drawsOf (first : se.targetSet = set :: rest)
    (counted : se.count ≠ 0) (unicast : set.flags &&& SVSF_MULTICAST = 0)
    (normal : set.normalizer.toNat = weightSum set.list % 2 ^ 32)
    (small : weightSum set.list < 2 ^ 32) (positive : 0 < weightSum set.list)
    (inside : i < set.list.length) :
    2 * (RAND_MAX.toNat * set.list[i].weight.toNat) <
        2 * ((drawsOf se set i).card * weightSum set.list) + 3 * weightSum set.list ∧
      2 * ((drawsOf se set i).card * weightSum set.list) <
        2 * (RAND_MAX.toNat * set.list[i].weight.toNat) + 3 * weightSum set.list := by
  rw [drawsOf_eq first counted unicast normal small inside]
  have fine : 2 * RAND_MAX.toNat ≤ 2 ^ 32 := by decide
  have range : 0 < RAND_MAX.toNat := by decide
  have upper := card_scaledBelow fine range positive (weightSum_take_le set.list (i + 1))
  have lower := card_scaledBelow fine range positive (weightSum_take_le set.list i)
  have step := weightSum_take_succ inside
  have spread : RAND_MAX.toNat * weightSum (set.list.take (i + 1)) =
        RAND_MAX.toNat * weightSum (set.list.take i) +
          RAND_MAX.toNat * set.list[i].weight.toNat := by
    rw [step, Nat.mul_add]
  by_cases zero : i = 0
  · subst zero
    simp only [if_true, Finset.sdiff_empty]
    rw [List.take_zero, weightSum_nil] at spread
    omega
  have subset := scaledBelow_mono (N := 2 ^ 32) (R := RAND_MAX.toNat) (W := weightSum set.list)
      (show weightSum (set.list.take i) ≤ weightSum (set.list.take (i + 1)) by omega)
  rw [if_neg zero, Finset.card_sdiff_of_subset subset, Nat.sub_mul]
  omega

/-- For every draw the product stays within 64 bits and the iterator returns a
target of the first set; and each target gets its share of the draws. -/
theorem anycast_total_and_fair (first : se.targetSet = set :: rest) (counted : se.count ≠ 0)
    (unicast : set.flags &&& SVSF_MULTICAST = 0)
    (nonempty : set.list ≠ [])
    (normal : set.normalizer.toNat = weightSum set.list % 2 ^ 32) :
    (∀ random ≤ RAND_MAX.toNat, random * 2 ^ 32 / RAND_MAX.toNat * set.normalizer.toNat ≤
            2 ^ 64 - 1 ∧
          ∃ iter t front back iter', serviceIterInit se .anycast (UInt64.ofNat random) =
                (true, iter) ∧ set.list = front ++ t :: back ∧ iter.pos = some (t :: back) ∧
              serviceIterNext iter = .ok (some t, iter')) ∧
      ((∀ t ∈ set.list, 1 ≤ t.weight.toNat) → weightSum set.list < 2 ^ 32 →
        ∀ (i : Nat) (inside : i < set.list.length),
          |((drawsOf se set i).card : ℚ) - (set.list[i].weight.toNat : ℚ) * RAND_MAX.toNat /
                weightSum set.list| < 2) := by
  constructor
  · intro random drawn
    have sample := toNat_sampleOf drawn set.normalizer
    constructor
    · rw [← sample]
      exact Nat.le_sub_one_of_lt (UInt64.toNat_lt _)
    · have stops := selectFrom_ne_nil
          (show (0 : UInt64).toNat = 0 % 2 ^ 32 * 2 ^ 32 from rfl) nonempty
          (by
            rw [Nat.zero_add]
            exact sample_reached drawn normal)
      obtain ⟨t, back, picked⟩ := List.exists_cons_of_ne_nil stops
      have suffix := selectFrom_suffix (sampleOf (UInt64.ofNat random) set.normalizer) 0 set.list
      rw [picked] at suffix
      obtain ⟨front, together⟩ := suffix
      refine ⟨_, t, front, back, ⟨.anycast, none, none, some (t :: back)⟩,
        serviceIterInit_anycast first counted unicast _,
        together.symm, congrArg some picked, ?_⟩
      simp [serviceIterNext, picked]
  · intro positive small i inside
    have total : 0 < weightSum set.list := by
      obtain ⟨t, others, together⟩ := List.exists_cons_of_ne_nil nonempty
      have heavy := positive t (by rw [together]; exact List.mem_cons_self)
      rw [together, weightSum_cons]
      omega
    obtain ⟨low, high⟩ := card_drawsOf first counted unicast normal small total inside
    have totalRat : (0 : ℚ) < weightSum set.list := by
      exact_mod_cast total
    have lowRat : 2 * ((RAND_MAX.toNat : ℚ) * set.list[i].weight.toNat) <
          2 * ((drawsOf se set i).card * weightSum set.list) + 3 * weightSum set.list := by
      exact_mod_cast low
    have highRat : 2 * (((drawsOf se set i).card : ℚ) * weightSum set.list) <
          2 * (RAND_MAX.toNat * set.list[i].weight.toNat) + 3 * weightSum set.list := by
      exact_mod_cast high
    rw [abs_lt]
    constructor
    · rw [neg_lt_sub_iff_lt_add, div_lt_iff₀ totalRat]
      linarith
    · rw [sub_lt_iff_lt_add, ← sub_lt_iff_lt_add', lt_div_iff₀ totalRat]
      linarith

end Anycast

def weightedEntry : ServiceEntry :=
  (serviceEntryCreate.withTarget (forwardRule [10, 0, 0, 1] 7 1 "eth0")).withTarget
      (forwardRule [10, 0, 0, 2] 7 3 "eth0")

/-- The second target of `weightedEntry` gets three quarters of the draws. -/
theorem anycast_weightedEntry : ∃ set, weightedEntry.targetSet = [set] ∧
      ∃ inside : 1 < set.list.length,
        |((drawsOf weightedEntry set 1).card : ℚ) -
            (set.list[1].weight.toNat : ℚ) * RAND_MAX.toNat / weightSum set.list| < 2 := by
  refine ⟨_, rfl, by decide, ?_⟩
  exact (@anycast_total_and_fair weightedEntry _ _ rfl (by decide)
    (by decide) (by decide) (by decide)).2 (by decide) (by decide) 1
    (by decide)

end Serval
