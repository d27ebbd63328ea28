import Mathlib.Algebra.BigOperators.Group.List.Basic
import Mathlib.Data.UInt
import Mathlib.Algebra.Order.Group.Multiset
import Mathlib.Tactic.Abel
import Serval.Service.Basic

/-!
# Lists of target sets

The sets of an entry stand in strictly decreasing priority, and each set keeps
a tally of its targets. Adding a target and moving one come down to the same
operation, `placeTarget`, on the list of sets.
-/

namespace Serval

open Serval.Support

def Refused (test : Target → Except Fault Bool) (sets : List TargetSet) : Prop :=
  ∀ set ∈ sets, ∀ t ∈ set.list, test t = .ok false

structure FirstHit (test : Target → Except Fault Bool) (sets : List TargetSet)
    (found : Located) : Prop where
  sets : sets = found.sets.whole
  list : found.sets.item.list = found.targets.whole
  accepted : test found.targets.item = .ok true
  earlierSets : Refused test found.sets.before
  earlier : ∀ t ∈ found.targets.before, test t = .ok false

section Hit

variable {test : Target → Except Fault Bool} {sets : List TargetSet} {found : Located}

theorem FirstHit.set_mem (hit : FirstHit test sets found) : found.sets.item ∈ sets := by
  rw [hit.sets]
  exact found.sets.item_mem_whole

theorem FirstHit.target_mem (hit : FirstHit test sets found) :
    found.targets.item ∈ found.sets.item.list := by
  rw [hit.list]
  exact found.targets.item_mem_whole

end Hit

variable {test : Target → Except Fault Bool} {change : TargetSet → TargetSet}
    {sets before : List TargetSet} {fresh : TargetSet} {priority : UInt32}
    {set : TargetSet} {after : List TargetSet}

theorem Refused.tail {rest : List TargetSet}
    (refused : Refused test (set :: rest)) : Refused test rest :=
  fun other member => refused other (List.mem_cons_of_mem set member)

theorem locate_none (refused : Refused test sets) : locate test sets = .ok none := by
  induction sets with
  | nil => rfl
  | cons set rest ih =>
    have here := splitFirstM_none (refused set List.mem_cons_self)
    have later := ih refused.tail
    simp [locate, here, later]

theorem FirstHit.locate_eq {found : Located} (hit : FirstHit test sets found) :
    locate test sets = .ok (some found) := by
  obtain ⟨⟨before, set, after⟩, targets⟩ := found
  have together : sets = before ++ set :: after := hit.sets
  have earlierSets : Refused test before := hit.earlierSets
  subst together
  induction before with
  | nil =>
    have here : splitFirstM test set.list = .ok (some targets) := by
      rw [show set.list = targets.whole from hit.list]
      exact splitFirstM_append hit.earlier hit.accepted
    simp [locate, here]
  | cons other rest ih =>
    have here := splitFirstM_none (earlierSets other List.mem_cons_self)
    have later := ih earlierSets.tail
        { sets := rfl
          list := hit.list
          accepted := hit.accepted
          earlierSets := earlierSets.tail
          earlier := hit.earlier }
    simp [locate, here, later]

theorem refused_or_firstHit (total : ∀ set ∈ sets, ∀ t ∈ set.list, ∃ answer, test t = .ok answer) :
    Refused test sets ∨ ∃ found, FirstHit test sets found := by
  induction sets with
  | nil =>
    left
    intro set member
    cases member
  | cons set rest ih =>
    rcases exists_first (total set List.mem_cons_self) with
      refused | ⟨targets, together, accepted, earlier⟩
    · rcases ih fun other member =>
          total other (List.mem_cons_of_mem set member) with
        later | ⟨found, hit⟩
      · left
        intro other member
        rcases List.mem_cons.mp member with rfl | member
        · exact refused
        · exact later other member
      right
      refine ⟨{ found with
        sets := { found.sets with
          before := set :: found.sets.before } }, ?_⟩
      exact {
        sets := by
          rw [hit.sets]
          rfl
        list := hit.list
        accepted := hit.accepted
        earlierSets := by
          intro other member
          rcases List.mem_cons.mp member with rfl | member
          · exact refused
          · exact hit.earlierSets other member
        earlier := hit.earlier }
    · right
      refine ⟨⟨⟨[], set, rest⟩, targets⟩, ?_⟩
      exact {
        sets := rfl
        list := together
        accepted := accepted
        earlierSets := by
          intro other member
          cases member
        earlier := earlier }

/-- The counters of a set agree with its list, modulo their width. -/
structure Tallied (set : TargetSet) : Prop where
  count : set.count = UInt16.ofNat set.list.length
  normalizer : set.normalizer = (set.list.map (·.weight)).sum

structure SetOk (set : TargetSet) : Prop extends Tallied set where
  nonempty : set.list ≠ []

theorem targetSetCreate_tallied (flags : UInt16) (priority : UInt32) :
    Tallied (targetSetCreate flags priority) where
  count := rfl
  normalizer := rfl

theorem Tallied.add (tallied : Tallied set) (t : Target) : SetOk (targetSetAddTarget set t) where
  count := by
    simp only [targetSetAddTarget, List.length_append, List.length_cons, List.length_nil,
      tallied.count, UInt16.ofNat_add]
    rfl
  normalizer := by
    simp [targetSetAddTarget, tallied.normalizer]
  nonempty := by
    simp [targetSetAddTarget]

theorem Tallied.remove (tallied : Tallied set) (targets : Split Target)
    (together : set.list = targets.whole) :
    Tallied (targetSetRemoveTarget set targets) where
  count := by
    have counted : set.count = UInt16.ofNat (targets.before ++ targets.after).length + 1 := by
      rw [tallied.count, together]
      simp only [Split.whole, List.length_append, List.length_cons, ← Nat.add_assoc,
        UInt16.ofNat_add]
      rfl
    simp [targetSetRemoveTarget, counted]
  normalizer := by
    simp only [targetSetRemoveTarget, tallied.normalizer, together, Split.whole, List.map_append,
      List.map_cons, List.sum_append,
      List.sum_cons]
    abel

theorem Tallied.unlessEmpty {kept : TargetSet} (tallied : Tallied set)
    (member : kept ∈ unlessEmpty set) : kept = set ∧ SetOk kept := by
  unfold Serval.unlessEmpty at member
  by_cases zero : set.count = 0
  · simp [zero] at member
  have same : kept = set := by simpa [zero] using member
  subst same
  refine ⟨rfl, tallied, ?_⟩
  intro empty
  apply zero
  rw [tallied.count, empty]
  rfl

/-! ## What a list of sets holds -/

def contents (sets : List TargetSet) : Multiset (UInt32 × Target) :=
  (sets.map fun set =>
    (set.list.map (Prod.mk set.priority) : Multiset _)).sum

@[simp]
theorem contents_nil : contents [] = 0 := rfl

theorem contents_cons (set : TargetSet) (rest : List TargetSet) : contents (set :: rest) =
      (set.list.map (Prod.mk set.priority) : Multiset _) + contents rest :=
  rfl

@[simp]
theorem contents_append (first second : List TargetSet) :
    contents (first ++ second) = contents first + contents second := by
  unfold contents
  rw [List.map_append, List.sum_append]

theorem contents_perm {first second : List TargetSet} (perm : first.Perm second) :
    contents first = contents second :=
  (perm.map _).sum_eq

theorem mem_contents {entry : UInt32 × Target} : entry ∈ contents sets ↔
      ∃ set ∈ sets, set.priority = entry.1 ∧ entry.2 ∈ set.list := by
  induction sets with
  | nil => simp
  | cons set rest ih =>
    rw [contents_cons, Multiset.mem_add, ih]
    obtain ⟨priority, t⟩ := entry
    simp only [Multiset.mem_coe, List.mem_map, Prod.mk.injEq, List.exists_mem_cons_iff]
    constructor
    · rintro (⟨_, member, same, rfl⟩ | later)
      · exact Or.inl ⟨same, member⟩
      · exact Or.inr later
    · rintro (⟨same, member⟩ | later)
      · exact Or.inl ⟨t, member, same, rfl⟩
      · exact Or.inr later

def Descending (sets : List TargetSet) : Prop :=
  (sets.map (·.priority)).Pairwise fun above below => below < above

theorem Descending.sublist {fewer : List TargetSet} (descending : Descending sets)
    (sublist : (fewer.map (·.priority)).Sublist (sets.map (·.priority))) :
    Descending fewer :=
  List.Pairwise.sublist sublist descending

theorem Descending.congr {others : List TargetSet} (descending : Descending sets)
    (same : others.map (·.priority) = sets.map (·.priority)) :
    Descending others := by
  unfold Descending
  rw [same]
  exact descending

theorem insertTargetSet_append (above : ∀ pos ∈ before, ¬ pos.priority < set.priority) :
    insertTargetSet (before ++ after) set = before ++ insertTargetSet after set := by
  induction before with
  | nil => rfl
  | cons pos rest ih =>
    have here := above pos List.mem_cons_self
    have later := ih fun other member =>
        above other (List.mem_cons_of_mem pos member)
    simp [insertTargetSet, here, later]

theorem insertTargetSet_append_left (below : ∃ pos ∈ before, pos.priority < set.priority) :
    insertTargetSet (before ++ after) set = insertTargetSet before set ++ after := by
  induction before with
  | nil =>
    obtain ⟨pos, member, _⟩ := below
    cases member
  | cons pos rest ih =>
    by_cases here : pos.priority < set.priority
    · simp [insertTargetSet, here]
    have later : ∃ other ∈ rest, other.priority < set.priority := by
      obtain ⟨other, member, lower⟩ := below
      rcases List.mem_cons.mp member with rfl | member
      · exact absurd lower here
      · exact ⟨other, member, lower⟩
    simp [insertTargetSet, here, ih later]

theorem insertTargetSet_perm (sets : List TargetSet) (set : TargetSet) :
    (insertTargetSet sets set).Perm (set :: sets) := by
  induction sets with
  | nil => exact List.Perm.refl _
  | cons pos rest ih =>
    unfold insertTargetSet
    split
    · exact List.Perm.refl _
    · exact (ih.cons pos).trans (List.Perm.swap set pos rest)

theorem Descending.insert {sets : List TargetSet} (descending : Descending sets) {set : TargetSet}
    (absent : ∀ pos ∈ sets, pos.priority ≠ set.priority) :
    Descending (insertTargetSet sets set) := by
  induction sets with
  | nil => simp [insertTargetSet, Descending]
  | cons pos rest ih =>
    obtain ⟨below, later⟩ := List.pairwise_cons.mp descending
    by_cases lower : pos.priority < set.priority
    · simp only [insertTargetSet, lower, if_true]
      refine List.pairwise_cons.mpr ⟨?_, descending⟩
      intro priority member
      rcases List.mem_cons.mp member with rfl | member
      · exact lower
      · exact UInt32.lt_trans (below priority member) lower
    · simp only [insertTargetSet, lower, if_false]
      refine List.pairwise_cons.mpr ⟨?_, ?_⟩
      · intro priority member
        obtain ⟨other, otherMember, rfl⟩ := List.mem_map.mp member
        rcases List.mem_cons.mp ((insertTargetSet_perm rest set).mem_iff.mp otherMember) with
          rfl | otherMember
        · exact UInt32.lt_of_le_of_ne (UInt32.not_lt.mp lower) (absent pos List.mem_cons_self).symm
        · exact below _ (List.mem_map_of_mem otherMember)
      · exact ih later fun other member =>
          absent other (List.mem_cons_of_mem pos member)

/-- Change the set of a priority, or insert the changed fresh set. -/
def placeTarget (change : TargetSet → TargetSet) (fresh : TargetSet)
    (sets : List TargetSet) : List TargetSet :=
  match getTargetSet sets fresh.priority with
  | some split => { split with item := change split.item }.whole
  | none => insertTargetSet sets (change fresh)

theorem getTargetSet_eq_some {split : Split TargetSet}
    (found : getTargetSet sets priority = some split) :
    sets = split.whole ∧ split.item.priority = priority ∧
      ∀ pos ∈ split.before, pos.priority ≠ priority := by
  obtain ⟨together, here, others⟩ := splitFirst_eq_some found
  refine ⟨together, by simpa using here, ?_⟩
  intro pos member
  simpa using others pos member

theorem getTargetSet_eq_none_iff : getTargetSet sets priority = none ↔
      ∀ pos ∈ sets, pos.priority ≠ priority := by
  unfold getTargetSet
  rw [splitFirst_eq_none_iff]
  simp

theorem getTargetSet_append (others : ∀ pos ∈ before, pos.priority ≠ priority)
    (here : set.priority = priority) :
    getTargetSet (before ++ set :: after) priority = some ⟨before, set, after⟩ := by
  refine splitFirst_append ?_ (by simpa using here)
  intro pos member
  simpa using others pos member

theorem placeTarget_found (others : ∀ pos ∈ before, pos.priority ≠ fresh.priority)
    (here : set.priority = fresh.priority) :
    placeTarget change fresh (before ++ set :: after) = before ++ change set :: after := by
  simp only [placeTarget, getTargetSet_append others here, Split.whole]

theorem placeTarget_absent (absent : ∀ pos ∈ sets, pos.priority ≠ fresh.priority) :
    placeTarget change fresh sets = insertTargetSet sets (change fresh) := by
  simp only [placeTarget, getTargetSet_eq_none_iff.mpr absent]

structure Adds (change : TargetSet → TargetSet) (t : Target) : Prop where
  priority : ∀ set, (change set).priority = set.priority
  list : ∀ set, (change set).list = set.list ++ [t]
  tallied : ∀ set, Tallied set → SetOk (change set)

theorem targetSetAddTarget_adds (t : Target) : Adds (targetSetAddTarget · t) t where
  priority := fun _ => rfl
  list := fun _ => rfl
  tallied := fun _ tallied => tallied.add t

theorem targetSetMoveTarget_adds (flags : UInt16) (t : Target) :
    Adds (targetSetMoveTarget flags t) t where
  priority := fun _ => rfl
  list := fun _ => rfl
  tallied := by
    intro set tallied
    have ok := tallied.add t
    exact { count := ok.count, normalizer := ok.normalizer,
            nonempty := ok.nonempty }

section Place

variable {change : TargetSet → TargetSet} {t : Target} {fresh : TargetSet} {sets : List TargetSet}

theorem placeTarget_cases (change : TargetSet → TargetSet) (fresh : TargetSet)
    (sets : List TargetSet) :
    (∃ before set after, sets = before ++ set :: after ∧ set.priority = fresh.priority ∧
        (∀ pos ∈ before, pos.priority ≠ fresh.priority) ∧
        placeTarget change fresh sets = before ++ change set :: after) ∨
      ((∀ pos ∈ sets, pos.priority ≠ fresh.priority) ∧
        placeTarget change fresh sets = insertTargetSet sets (change fresh)) := by
  cases found : getTargetSet sets fresh.priority with
  | some split =>
    obtain ⟨together, here, others⟩ := getTargetSet_eq_some found
    left
    refine ⟨split.before, split.item, split.after, together, here, others, ?_⟩
    rw [together]
    exact placeTarget_found others here
  | none =>
    have absent := getTargetSet_eq_none_iff.mp found
    exact Or.inr ⟨absent, placeTarget_absent absent⟩

theorem Adds.descending (adds : Adds change t) (descending : Descending sets) :
    Descending (placeTarget change fresh sets) := by
  rcases placeTarget_cases change fresh sets with
    ⟨before, set, after, rfl, _, _, placed⟩ | ⟨absent, placed⟩
  · rw [placed]
    exact descending.congr (by simp [adds.priority])
  · rw [placed]
    refine descending.insert ?_
    rw [adds.priority]
    exact absent

theorem Adds.setOk (adds : Adds change t) (ok : ∀ set ∈ sets, SetOk set) (tallied : Tallied fresh) :
    ∀ set ∈ placeTarget change fresh sets, SetOk set := by
  intro set member
  rcases placeTarget_cases change fresh sets with
    ⟨before, old, after, rfl, _, _, placed⟩ | ⟨_, placed⟩
  · rw [placed] at member
    rcases List.mem_append.mp member with early | late
    · exact ok set (List.mem_append_left _ early)
    · rcases List.mem_cons.mp late with rfl | late
      · exact adds.tallied old (ok old (by simp)).toTallied
      · exact ok set (List.mem_append_right _ (List.mem_cons_of_mem _ late))
  · rw [placed] at member
    rcases List.mem_cons.mp ((insertTargetSet_perm sets _).mem_iff.mp member) with rfl | old
    · exact adds.tallied fresh tallied
    · exact ok set old

theorem Adds.contents (adds : Adds change t) (empty : fresh.list = []) :
    contents (placeTarget change fresh sets) = (fresh.priority, t) ::ₘ contents sets := by
  rcases placeTarget_cases change fresh sets with
    ⟨before, set, after, rfl, here, _, placed⟩ | ⟨_, placed⟩
  · rw [placed, contents_append, contents_append, contents_cons, contents_cons, adds.priority,
      adds.list, List.map_append, here,
      ← Multiset.coe_add, ← Multiset.singleton_add]
    simp only [List.map_cons, List.map_nil, Multiset.coe_singleton]
    abel
  · rw [placed, contents_perm (insertTargetSet_perm sets _), contents_cons, adds.priority,
      adds.list, empty]
    rfl

end Place

theorem updateTargetSet_eq (others : ∀ pos ∈ before, pos.priority ≠ priority)
    (here : set.priority = priority) :
    updateTargetSet priority change (before ++ set :: after) = before ++ change set :: after := by
  simp only [updateTargetSet, getTargetSet_append others here, Split.whole]

/-- Inserting a set and then changing it is inserting the changed set. -/
theorem updateTargetSet_insert (keeps : (change fresh).priority = fresh.priority)
    (absent : ∀ pos ∈ sets, pos.priority ≠ fresh.priority) :
    updateTargetSet fresh.priority change (insertTargetSet sets fresh) =
      insertTargetSet sets (change fresh) := by
  have shape : ∃ before after, sets = before ++ after ∧
        ∀ set : TargetSet, set.priority = fresh.priority →
          insertTargetSet sets set = before ++ set :: after := by
    clear absent
    induction sets with
    | nil => exact ⟨[], [], rfl, fun set _ => rfl⟩
    | cons pos rest ih =>
      by_cases lower : pos.priority < fresh.priority
      · refine ⟨[], pos :: rest, rfl, ?_⟩
        intro set same
        simp [insertTargetSet, same, lower]
      · obtain ⟨before, after, together, inserted⟩ := ih
        refine ⟨pos :: before, after, by rw [together]; rfl, ?_⟩
        intro set same
        simp [insertTargetSet, same, lower, inserted set same]
  obtain ⟨before, after, together, inserted⟩ := shape
  rw [inserted fresh rfl, inserted (change fresh) keeps]
  refine updateTargetSet_eq ?_ rfl
  intro pos member
  exact absent pos (by rw [together]; exact List.mem_append_left _ member)

theorem insertTargetSet_of_lower (lower : ∀ pos ∈ sets, pos.priority < set.priority) :
    insertTargetSet sets set = set :: sets := by
  cases sets with
  | nil => rfl
  | cons pos rest => simp [insertTargetSet, lower pos List.mem_cons_self]

section Move

-- `kept` is what is left of the set that the target comes from.
variable (change : TargetSet → TargetSet) {fresh : TargetSet}
  {before kept after : List TargetSet} {set : TargetSet}

theorem updateOther_found (elsewhere : set.priority ≠ fresh.priority)
    (keptElsewhere : ∀ pos ∈ kept, pos.priority ≠ fresh.priority)
    (found : getTargetSet (before ++ set :: after) fresh.priority ≠ none) :
    (updateOther fresh.priority change ⟨before, set, after⟩).before ++ kept ++
        (updateOther fresh.priority change ⟨before, set, after⟩).after =
      placeTarget change fresh (before ++ kept ++ after) := by
  unfold updateOther
  cases inFront : getTargetSet before fresh.priority with
  | some front =>
    obtain ⟨rfl, here, others⟩ := getTargetSet_eq_some inFront
    simp only [Option.isSome_some, if_true, Split.whole]
    rw [updateTargetSet_eq others here]
    simp only [List.append_assoc, List.cons_append]
    rw [placeTarget_found others here]
  | none =>
    have notInFront := getTargetSet_eq_none_iff.mp inFront
    simp only [Option.isSome_none, Bool.false_eq_true, if_false]
    cases behind : getTargetSet after fresh.priority with
    | some back =>
      obtain ⟨rfl, here, others⟩ := getTargetSet_eq_some behind
      simp only [Split.whole]
      rw [updateTargetSet_eq others here, ← List.append_assoc, ← List.append_assoc,
        placeTarget_found _ here]
      intro pos member
      simp only [List.mem_append] at member
      rcases member with (early | kept) | late
      · exact notInFront pos early
      · exact keptElsewhere pos kept
      · exact others pos late
    | none =>
      have notBehind := getTargetSet_eq_none_iff.mp behind
      apply absurd _ found
      rw [getTargetSet_eq_none_iff]
      intro pos member
      simp only [List.mem_append, List.mem_cons] at member
      rcases member with early | rfl | late
      · exact notInFront pos early
      · exact elsewhere
      · exact notBehind pos late

theorem getTargetSet_insertTargetSet (sets : List TargetSet) (fresh : TargetSet) :
    (getTargetSet (insertTargetSet sets fresh) fresh.priority).isSome =
      true := by
  cases missing : getTargetSet (insertTargetSet sets fresh) fresh.priority with
  | some split => rfl
  | none =>
    exact absurd rfl (getTargetSet_eq_none_iff.mp missing fresh
        ((insertTargetSet_perm sets fresh).mem_iff.mpr List.mem_cons_self))

/-- A new set takes the target: it is linked before, right in front of or
behind the set that the target comes from. -/
theorem updateOther_linked (keeps : (change fresh).priority = fresh.priority)
    (descending : Descending (before ++ set :: after))
    (keptOnly : ∀ pos ∈ kept, pos.priority = set.priority)
    (absentBefore : ∀ pos ∈ before, pos.priority ≠ fresh.priority)
    (absentAfter : ∀ pos ∈ after, pos.priority ≠ fresh.priority) :
    (updateOther fresh.priority change (linkTargetSet ⟨before, set, after⟩ fresh)).before ++ kept ++
        (updateOther fresh.priority change (linkTargetSet ⟨before, set, after⟩ fresh)).after =
      insertTargetSet (before ++ kept ++ after) (change fresh) := by
  unfold linkTargetSet
  by_cases lower : before.any (·.priority < fresh.priority) = true
  · have below : ∃ pos ∈ before, pos.priority < fresh.priority := by simpa using lower
    have inFront := getTargetSet_insertTargetSet before fresh
    simp only [lower, if_true, updateOther, inFront]
    rw [updateTargetSet_insert keeps absentBefore, List.append_assoc, List.append_assoc,
      insertTargetSet_append_left]
    rw [keeps]
    exact below
  · have above : ∀ pos ∈ before, ¬ pos.priority < fresh.priority := by simpa using lower
    by_cases here : set.priority < fresh.priority
    · have inFront : (getTargetSet (before ++ [fresh]) fresh.priority).isSome =
            true := by
        rw [getTargetSet_append absentBefore rfl]
        rfl
      have afterLower : ∀ pos ∈ after, pos.priority < fresh.priority := by
        intro pos member
        unfold Descending at descending
        rw [List.map_append, List.pairwise_append] at descending
        have first := (List.pairwise_cons.mp descending.2.1).1
        exact UInt32.lt_trans (first _ (List.mem_map_of_mem member)) here
      simp only [lower, if_false, here, if_true, updateOther, inFront, Bool.false_eq_true]
      rw [updateTargetSet_eq absentBefore rfl, List.append_assoc before kept after,
        insertTargetSet_append (by rw [keeps]; exact above),
        insertTargetSet_of_lower]
      · simp
      · intro pos member
        rw [keeps]
        rcases List.mem_append.mp member with kept | late
        · rw [keptOnly pos kept]
          exact here
        · exact afterLower pos late
    · have notInFront : getTargetSet before fresh.priority = none :=
        getTargetSet_eq_none_iff.mpr absentBefore
      simp only [lower, if_false, here, updateOther, notInFront, Option.isSome_none,
        Bool.false_eq_true]
      rw [updateTargetSet_insert keeps absentAfter, insertTargetSet_append]
      intro pos member
      rw [keeps]
      rcases List.mem_append.mp member with early | kept
      · exact above pos early
      · rw [keptOnly pos kept]
        exact here

end Move

/-- What `__service_entry_modify_target` does to the list when it moves a
target. -/
theorem moveTarget_eq (change : TargetSet → TargetSet) (fresh : TargetSet)
    (keeps : (change fresh).priority = fresh.priority)
    {sets : Split TargetSet} (descending : Descending sets.whole)
    (elsewhere : sets.item.priority ≠ fresh.priority)
    {kept : List TargetSet}
    (keptOnly : ∀ pos ∈ kept, pos.priority = sets.item.priority)
    (linked : Split TargetSet)
    (link : linked =
      if (getTargetSet sets.whole fresh.priority).isNone then
        linkTargetSet sets fresh else sets) :
    (updateOther fresh.priority change linked).before ++ kept ++
        (updateOther fresh.priority change linked).after =
      placeTarget change fresh (sets.before ++ kept ++ sets.after) := by
  have keptElsewhere : ∀ pos ∈ kept, pos.priority ≠ fresh.priority := by
    intro pos member
    rw [keptOnly pos member]
    exact elsewhere
  cases found : getTargetSet sets.whole fresh.priority with
  | some split =>
    have same : linked = sets := by
      rw [link, found]
      rfl
    subst same
    apply updateOther_found change elsewhere keptElsewhere
    intro absent
    cases found.symm.trans absent
  | none =>
    have absent := getTargetSet_eq_none_iff.mp found
    have absentBefore : ∀ pos ∈ sets.before, pos.priority ≠ fresh.priority :=
      fun pos member => absent pos (List.mem_append_left _ member)
    have absentAfter : ∀ pos ∈ sets.after, pos.priority ≠ fresh.priority :=
      fun pos member => absent pos
        (List.mem_append_right _ (List.mem_cons_of_mem _ member))
    have nowhere : ∀ pos ∈ sets.before ++ kept ++ sets.after, pos.priority ≠ fresh.priority := by
      intro pos member
      simp only [List.mem_append] at member
      rcases member with (early | kept) | late
      · exact absentBefore pos early
      · exact keptElsewhere pos kept
      · exact absentAfter pos late
    have same : linked = linkTargetSet sets fresh := by
      rw [link, found]
      rfl
    rw [placeTarget_absent nowhere, same]
    exact updateOther_linked change keeps descending keptOnly absentBefore absentAfter

end Serval
