import Serval.Service.Entry

/-!
# Removing the targets of a device

The loop over the targets of one set, which drops the set when nothing is left
of it, and the loop over the sets of an entry.
-/

namespace Serval

open Serval.Support

/-- What the loop over one set leaves: `passed` are the targets it has kept
before, `kept` the ones it keeps of the rest. -/
structure Swept (ifname : String) (set : TargetSet) (passed rest : List Target)
    (result : Option TargetSet) (removed : Nat) (kept : List Target) :
    Prop where
  filtered : (rest : Multiset Target).filter (fun t => ¬ OnDevice ifname t) = kept
  counted : removed + kept.length = rest.length
  gone : result = none → passed ++ kept = []
  left :
    passed ++ rest ≠ [] →
      ∀ set' ∈ result, set'.priority = set.priority ∧ set'.list = passed ++ kept ∧ SetOk set'

section Sweep

variable {ifname : String} {set : TargetSet} {passed rest kept : List Target}
  {t : Target} {result : Option TargetSet} {removed : Nat}

theorem Swept.nil (tallied : Tallied { set with list := passed ++ [] }) :
    Swept ifname set passed [] (some { set with list := passed }) 0 [] where
  filtered := rfl
  counted := rfl
  gone := fun impossible => by cases impossible
  left := by
    intro nonempty set' same
    cases same
    rw [List.append_nil] at tallied nonempty
    exact ⟨rfl, by simp, { toTallied := tallied, nonempty := nonempty }⟩

theorem Swept.stays (swept : Swept ifname set (passed ++ [t]) rest result removed kept)
    (stays : ¬ OnDevice ifname t) :
    Swept ifname set passed (t :: rest) result removed (t :: kept) where
  filtered := by
    rw [← Multiset.cons_coe, Multiset.filter_cons_of_pos
        (p := fun t => ¬ OnDevice ifname t) _ stays,
      swept.filtered, Multiset.cons_coe]
  counted := by
    have counted := swept.counted
    simp only [List.length_cons]
    omega
  gone := by
    intro none
    simpa using swept.gone none
  left := by
    intro _ set' found
    have kept := swept.left (by simp) set' found
    simpa using kept

theorem filter_cons_onDevice (goes : OnDevice ifname t) :
    ((t :: rest : List Target) : Multiset Target).filter
        (fun t => ¬ OnDevice ifname t) =
      (rest : Multiset Target).filter (fun t => ¬ OnDevice ifname t) := by
  rw [← Multiset.cons_coe, Multiset.filter_cons_of_neg
      (p := fun t => ¬ OnDevice ifname t) _ (not_not_intro goes)]

/-- The next target is on the device and not the last one of the set. -/
theorem Swept.goes
    (swept :
      Swept ifname (targetSetRemoveTarget set ⟨passed, t, rest⟩) passed rest
        result removed kept)
    (goes : OnDevice ifname t) (nonempty : passed ++ rest ≠ []) :
    Swept ifname set passed (t :: rest) result (removed + 1) kept where
  filtered := by
    rw [filter_cons_onDevice goes, swept.filtered]
  counted := by
    have counted := swept.counted
    simp only [List.length_cons]
    omega
  gone := swept.gone
  left := fun _ => swept.left nonempty

theorem Swept.empties (goes : OnDevice ifname t) : Swept ifname set [] [t] none 1 [] where
  filtered := by
    rw [filter_cons_onDevice goes]
    rfl
  counted := rfl
  gone := fun _ => rfl
  left := fun _ set' impossible => by cases impossible

theorem Tallied.count_removed_eq_zero_iff
    (tallied : Tallied (targetSetRemoveTarget set ⟨passed, t, rest⟩))
    (small : passed.length + rest.length < 2 ^ 16) :
    (targetSetRemoveTarget set ⟨passed, t, rest⟩).count = 0 ↔ passed ++ rest = [] := by
  constructor
  · intro zero
    have counted := congrArg UInt16.toNat (zero.symm.trans tallied.count)
    simp only [targetSetRemoveTarget] at counted
    rw [UInt16.toNat_ofNat_of_lt'] at counted
    · exact List.eq_nil_of_length_eq_zero counted.symm
    · rw [List.length_append]
      exact small
  · intro empty
    rw [tallied.count]
    simp only [targetSetRemoveTarget, empty]
    rfl

end Sweep

/-- The loop over one set keeps exactly the targets that are not on the
device. -/
theorem sweepTargets_spec (ifname : String) (rest : List Target) :
    ∀ (set : TargetSet) (passed : List Target), Tallied { set with list := passed ++ rest } →
      passed.length + rest.length ≤ 2 ^ 16 → (∀ t ∈ rest, TargetOk t) →
      ∃ result removed kept, sweepTargets ifname set passed rest = .ok (result, removed) ∧
          Swept ifname set passed rest result removed kept := by
  induction rest with
  | nil =>
    intro set passed tallied small ok
    exact ⟨_, 0, [], rfl, Swept.nil tallied⟩
  | cons t rest ih =>
    intro set passed tallied small ok
    have later : ∀ other ∈ rest, TargetOk other :=
      fun other member => ok other (List.mem_cons_of_mem t member)
    obtain ⟨answer, answered, meaning⟩ := (ok t List.mem_cons_self).onDevice ifname
    simp only [List.length_cons] at small
    cases answer with
    | false =>
      have stays : ¬ OnDevice ifname t := by
        intro here
        cases meaning.mpr here
      have together : passed ++ t :: rest = passed ++ [t] ++ rest := by simp
      rw [together] at tallied
      obtain ⟨result, removed, kept, run, swept⟩ := ih set (passed ++ [t]) tallied
          (by simp; omega) later
      refine ⟨result, removed, t :: kept, ?_, swept.stays stays⟩
      simp [sweepTargets, answered, run]
    | true =>
      have goes : OnDevice ifname t := meaning.mp rfl
      have removedTally : Tallied (targetSetRemoveTarget set ⟨passed, t, rest⟩) :=
        tallied.remove ⟨passed, t, rest⟩ rfl
      have zero_iff := removedTally.count_removed_eq_zero_iff (by omega)
      by_cases empty : passed ++ rest = []
      · have zero := zero_iff.mpr empty
        obtain ⟨rfl, rfl⟩ := List.append_eq_nil_iff.mp empty
        refine ⟨none, 1, [], ?_, Swept.empties goes⟩
        simp [sweepTargets, answered, zero]
      have positive := (not_congr zero_iff).mpr empty
      obtain ⟨result, removed, kept, run, swept⟩ := ih
          (targetSetRemoveTarget set ⟨passed, t, rest⟩) passed
          removedTally (by omega) later
      refine ⟨result, removed + 1, kept, ?_, swept.goes goes empty⟩
      simp [sweepTargets, answered, positive, run]

section SweptWhole

variable {ifname : String} {set : TargetSet} {kept : List Target}
  {result : Option TargetSet} {removed : Nat}

/-- What is left of a whole set, in the multiset of the entry's targets. -/
theorem Swept.contents_toList (swept : Swept ifname set [] set.list result removed kept)
    (nonempty : set.list ≠ []) :
    contents result.toList = (kept.map (Prod.mk set.priority) : Multiset _) := by
  cases result with
  | none =>
    rw [show kept = [] by simpa using swept.gone rfl]
    rfl
  | some set' =>
    obtain ⟨priority, list, _⟩ := swept.left nonempty set' rfl
    rw [Option.toList_some, contents_cons, contents_nil, add_zero, priority, list]
    rfl

theorem Swept.filter_contents (swept : Swept ifname set [] set.list result removed kept) :
    ((set.list.map (Prod.mk set.priority) : List _) : Multiset (UInt32 × Target)).filter
        (fun entry => ¬ OnDevice ifname entry.2) =
      (kept.map (Prod.mk set.priority) : Multiset _) := by
  rw [← Multiset.map_coe, Multiset.filter_map, ← Multiset.map_coe, ← swept.filtered]
  rfl

theorem Swept.sublist (swept : Swept ifname set [] set.list result removed kept)
    (nonempty : set.list ≠ []) {others sets : List UInt32}
    (sublist : others.Sublist sets) :
    (result.toList.map (·.priority) ++ others).Sublist
      (set.priority :: sets) := by
  cases result with
  | none => exact sublist.cons _
  | some set' =>
    obtain ⟨priority, _, _⟩ := swept.left nonempty set' rfl
    rw [Option.toList_some, List.map_cons, priority]
    exact sublist.cons_cons _

end SweptWhole

theorem sweepSets_spec (ifname : String) {sets : List TargetSet} (setOk : ∀ set ∈ sets, SetOk set)
    (small : ∀ set ∈ sets, set.list.length ≤ 2 ^ 16)
    (targetOk : ∀ set ∈ sets, ∀ t ∈ set.list, TargetOk t) :
    ∃ sets' removed, sweepSets ifname sets = .ok (sets', removed) ∧ (∀ set ∈ sets', SetOk set) ∧
      (sets'.map (·.priority)).Sublist (sets.map (·.priority)) ∧
      contents sets' = (contents sets).filter (fun entry => ¬ OnDevice ifname entry.2) ∧
      removed + (contents sets').card = (contents sets).card := by
  induction sets with
  | nil => exact ⟨[], 0, rfl, by simp, List.Sublist.refl _, by simp, by simp⟩
  | cons set rest ih =>
    have here := setOk set List.mem_cons_self
    obtain ⟨rest', more, runRest, okRest, sublist, contentsRest, countRest⟩ := ih
        (fun other member => setOk other (List.mem_cons_of_mem _ member))
        (fun other member => small other (List.mem_cons_of_mem _ member))
        (fun other member =>
          targetOk other (List.mem_cons_of_mem _ member))
    obtain ⟨result, removed, kept, run, swept⟩ :=
      sweepTargets_spec ifname set.list set [] here.toTallied
        (by simpa using small set List.mem_cons_self)
        (targetOk set List.mem_cons_self)
    have left := swept.contents_toList here.nonempty
    have counted := swept.counted
    refine ⟨result.toList ++ rest', removed + more, ?_, ?_, ?_, ?_, ?_⟩
    · simp [sweepSets, run, runRest]
    · intro other member
      rcases List.mem_append.mp member with mine | theirs
      · exact (swept.left here.nonempty other (by simpa using mine)).2.2
      · exact okRest other theirs
    · rw [List.map_append]
      exact swept.sublist here.nonempty sublist
    · rw [contents_append, contents_cons, Multiset.filter_add, left, swept.filter_contents,
        contentsRest]
    · rw [contents_append, contents_cons, Multiset.card_add, Multiset.card_add, left]
      simp only [Multiset.coe_card, List.length_map]
      omega

theorem EntryShape.removeTargetByDev {se : ServiceEntry} (shape : EntryShape se) (ifname : String)
    (small : ∀ set ∈ se.targetSet, set.list.length ≤ 2 ^ 16) :
    ∃ removed sets, se.removeTargetByDev ifname =
          .ok (removed, { se with
            targetSet := sets
            count := se.count - UInt32.ofNat removed }) ∧
        (∀ count, EntryShape { se with targetSet := sets, count }) ∧
        contents sets = (contents se.targetSet).filter
            (fun entry => ¬ OnDevice ifname entry.2) ∧
        removed + (contents sets).card = (contents se.targetSet).card := by
  obtain ⟨sets, removed, run, setOk, sublist, left, counted⟩ :=
    sweepSets_spec ifname shape.setOk small shape.targetOk
  refine ⟨removed, sets, ?_, ?_, left, counted⟩
  · simp [ServiceEntry.removeTargetByDev, run]
  · intro count
    refine EntryShape.of_contents (shape.descending.sublist sublist) setOk ?_
    rw [left]
    intro entry member
    exact shape.contentsOk entry (Multiset.mem_of_mem_filter member)

end Serval
