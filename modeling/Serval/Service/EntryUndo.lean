import Serval.Service.Entry

/-!
# Taking an added target out again

`__service_entry_remove_target` takes the first target that matches. Where a
target has just been added with the same type and destination, this is the
added one only under conditions on the sets that were there before.
-/

namespace Serval

open Serval.Support

/-- The place of a priority among the sets: the set that has it, or the new
set at the point where it is inserted. -/
structure Slot (fresh : TargetSet) (sets before : List TargetSet) (item : TargetSet)
    (after : List TargetSet) : Prop where
  here : item.priority = fresh.priority
  above : ∀ set ∈ before, fresh.priority < set.priority
  below : ∀ set ∈ after, set.priority < fresh.priority
  origin : sets = before ++ item :: after ∨ (item = fresh ∧ sets = before ++ after)

variable {sets : List TargetSet}

private theorem insertTargetSet_split (descending : Descending sets) (set : TargetSet)
    (absent : ∀ pos ∈ sets, pos.priority ≠ set.priority) :
    ∃ before after, sets = before ++ after ∧ insertTargetSet sets set = before ++ set :: after ∧
      (∀ pos ∈ before, set.priority < pos.priority) ∧
      ∀ pos ∈ after, pos.priority < set.priority := by
  induction sets with
  | nil => exact ⟨[], [], rfl, rfl, by simp, by simp⟩
  | cons pos rest ih =>
    have ordered := List.pairwise_cons.mp descending
    by_cases lower : pos.priority < set.priority
    · refine ⟨[], pos :: rest, rfl, ?_, by simp, ?_⟩
      · simp [insertTargetSet, lower]
      · intro other member
        rcases List.mem_cons.mp member with rfl | member
        · exact lower
        · exact UInt32.lt_trans (ordered.1 _ (List.mem_map_of_mem member)) lower
    · obtain ⟨before, after, together, inserted, above, below⟩ := ih ordered.2 fun other member =>
          absent other (List.mem_cons_of_mem pos member)
      refine ⟨pos :: before, after, ?_, ?_, ?_, below⟩
      · rw [together]
        rfl
      · simp [insertTargetSet, lower, inserted]
      · intro other member
        rcases List.mem_cons.mp member with rfl | member
        · exact UInt32.lt_of_le_of_ne (UInt32.not_lt.mp lower)
            (absent other List.mem_cons_self).symm
        · exact above other member

private theorem Descending.slot {sets : List TargetSet} (descending : Descending sets)
    {change : TargetSet → TargetSet} (fresh : TargetSet)
    (keeps : (change fresh).priority = fresh.priority) :
    ∃ before item after, Slot fresh sets before item after ∧
      placeTarget change fresh sets = before ++ change item :: after := by
  rcases placeTarget_cases change fresh sets with
    ⟨before, set, after, together, here, _, placed⟩ | ⟨absent, placed⟩
  · refine ⟨before, set, after, ⟨here, ?_, ?_, Or.inl together⟩, placed⟩
    · intro pos member
      rw [together] at descending
      unfold Descending at descending
      rw [List.map_append, List.pairwise_append] at descending
      rw [← here]
      exact descending.2.2 _ (List.mem_map_of_mem member) _ (by simp)
    · intro pos member
      rw [together] at descending
      unfold Descending at descending
      rw [List.map_append, List.pairwise_append] at descending
      rw [← here]
      exact (List.pairwise_cons.mp descending.2.1).1 _ (List.mem_map_of_mem member)
  · obtain ⟨before, after, together, inserted, above, below⟩ :=
      insertTargetSet_split descending (change fresh) (by
        rw [keeps]
        exact absent)
    rw [keeps] at above below
    exact ⟨before, fresh, after, ⟨rfl, above, below, Or.inr ⟨rfl, together⟩⟩, placed.trans inserted⟩

private theorem Slot.eq_of_priority {fresh item : TargetSet}
    {before after : List TargetSet} (slot : Slot fresh sets before item after)
    {set : TargetSet} (member : set ∈ sets)
    (same : set.priority = fresh.priority) :
    set = item ∧ sets = before ++ item :: after := by
  have notBefore : set ∉ before := by
    intro early
    have above := slot.above set early
    rw [same] at above
    exact UInt32.lt_irrefl _ above
  have notAfter : set ∉ after := by
    intro late
    have below := slot.below set late
    rw [same] at below
    exact UInt32.lt_irrefl _ below
  rcases slot.origin with present | ⟨_, absent⟩
  · rw [present, List.mem_append, List.mem_cons] at member
    rcases member with early | here | late
    · exact absurd early notBefore
    · exact ⟨here, present⟩
    · exact absurd late notAfter
  · rw [absent, List.mem_append] at member
    rcases member with early | late
    · exact absurd early notBefore
    · exact absurd late notAfter

def outline (sets : List TargetSet) : List (UInt32 × UInt16 × Multiset Target) :=
  sets.map fun set => (set.priority, set.flags, (set.list : Multiset Target))

theorem contents_eq_of_outline {others : List TargetSet} (same : outline sets = outline others) :
    contents sets = contents others := by
  have fromOutline (sets : List TargetSet) : contents sets = ((outline sets).map fun part =>
          part.2.2.map (Prod.mk part.1)).sum := by
    unfold contents outline
    rw [List.map_map]
    rfl
  rw [fromOutline, fromOutline, same]

theorem outline_eq_nil_iff (sets : List TargetSet) : outline sets = [] ↔ sets = [] :=
  List.map_eq_nil_iff

theorem ServiceEntry.outline_withTarget_ne (se : ServiceEntry) (args : TargetArgs) :
    outline (se.withTarget args).targetSet ≠ outline se.targetSet := by
  intro same
  have counted := congrArg Multiset.card (contents_eq_of_outline same)
  unfold ServiceEntry.withTarget at counted
  rw [(targetSetAddTarget_adds (newTarget args)).contents rfl, Multiset.card_cons] at counted
  omega

/-! ## Which target is found -/

/-- The removal finds the target that the arguments describe, in its own set,
and the set stays when it was there before. -/
structure UndoesAt (args : TargetArgs) (se : ServiceEntry) : Prop where
  above :
    ∀ set ∈ se.targetSet, args.priority < set.priority →
      ∀ t ∈ set.list, ¬ Matches args.type args.dst args.dstlen t
  first :
    ∀ set ∈ se.targetSet, set.priority = args.priority →
      ∀ t, set.list.find? (Matches args.type args.dst args.dstlen ·) = some t → t = newTarget args
  counts : ∀ set ∈ se.targetSet, set.priority = args.priority → set.count ≠ 0

theorem TargetOk.removes_eq {t : Target} (ok : TargetOk t) (type : RuleType) {dst : Option Buf}
    {dstlen : Nat} (dstOk : DstOk dst dstlen) :
    removesTarget type dst dstlen t = .ok (decide (Matches type dst dstlen t)) := by
  obtain ⟨answer, run, meaning⟩ := ok.removes type dstOk
  rw [run]
  congr 1
  rw [Bool.eq_iff_iff, meaning, decide_eq_true_iff]

structure FirstMatch (type : RuleType) (dst : Option Buf) (dstlen : Nat)
    (sets : List TargetSet) (found : Located) : Prop where
  sets : sets = found.sets.whole
  list : found.sets.item.list = found.targets.whole
  here : Matches type dst dstlen found.targets.item
  earlierSets : ∀ set ∈ found.sets.before, ∀ t ∈ set.list, ¬ Matches type dst dstlen t
  earlier : ∀ t ∈ found.targets.before, ¬ Matches type dst dstlen t

section FirstMatch

variable {se : ServiceEntry} {type : RuleType} {dst : Option Buf}
  {dstlen : Nat} {sets : List TargetSet} {found : Located}

private theorem FirstMatch.find?_list (first : FirstMatch type dst dstlen sets found) :
    found.sets.item.list.find? (Matches type dst dstlen ·) = some found.targets.item := by
  rw [first.list, List.find?_eq_some_iff_append]
  refine ⟨decide_eq_true first.here, found.targets.before, found.targets.after, rfl, ?_⟩
  intro t member
  simpa using first.earlier t member

private theorem EntryShape.removes_true_iff
    (shape : EntryShape se) (ok : DstOk dst dstlen) {set : TargetSet}
    (setMember : set ∈ se.targetSet) {t : Target} (member : t ∈ set.list) :
    removesTarget type dst dstlen t = .ok true ↔ Matches type dst dstlen t := by
  rw [(shape.targetOk set setMember t member).removes_eq type ok]
  simp

private theorem EntryShape.removes_false_iff
    (shape : EntryShape se) (ok : DstOk dst dstlen) {set : TargetSet}
    (setMember : set ∈ se.targetSet) {t : Target} (member : t ∈ set.list) :
    removesTarget type dst dstlen t = .ok false ↔ ¬ Matches type dst dstlen t := by
  rw [(shape.targetOk set setMember t member).removes_eq type ok]
  simp

theorem FirstHit.firstMatch (hit : FirstHit (removesTarget type dst dstlen) se.targetSet found)
    (shape : EntryShape se) (ok : DstOk dst dstlen) :
    FirstMatch type dst dstlen se.targetSet found where
  sets := hit.sets
  list := hit.list
  here := (shape.removes_true_iff ok hit.set_mem hit.target_mem).mp hit.accepted
  earlierSets := by
    intro set early t member
    have inSets : set ∈ se.targetSet := by
      rw [hit.sets]
      exact Split.mem_whole_of_before early
    exact (shape.removes_false_iff ok inSets member).mp (hit.earlierSets set early t member)
  earlier := by
    intro t early
    have member : t ∈ found.sets.item.list := by
      rw [hit.list]
      exact Split.mem_whole_of_before early
    exact (shape.removes_false_iff ok hit.set_mem member).mp (hit.earlier t early)

private theorem FirstMatch.firstHit (first : FirstMatch type dst dstlen se.targetSet found)
    (shape : EntryShape se) (ok : DstOk dst dstlen) :
    FirstHit (removesTarget type dst dstlen) se.targetSet found := by
  have setMember : found.sets.item ∈ se.targetSet := by
    rw [first.sets]
    exact found.sets.item_mem_whole
  have inList {t : Target} (member : t ∈ found.targets.whole) : t ∈ found.sets.item.list := by
    rw [first.list]
    exact member
  exact {
    sets := first.sets
    list := first.list
    accepted := (shape.removes_true_iff ok setMember
        (inList found.targets.item_mem_whole)).mpr first.here
    earlierSets := by
      intro set early t member
      have inSets : set ∈ se.targetSet := by
        rw [first.sets]
        exact Split.mem_whole_of_before early
      exact (shape.removes_false_iff ok inSets member).mpr (first.earlierSets set early t member)
    earlier := by
      intro t early
      exact (shape.removes_false_iff ok setMember (inList (Split.mem_whole_of_before early))).mpr
        (first.earlier t early) }

end FirstMatch

def Removable (type : RuleType) : Prop := type = .forward ∨ type = .demux

private theorem AddOk.newTarget_matches
    {args : TargetArgs} (ok : AddOk args) (removable : Removable args.type) :
    Matches args.type args.dst args.dstlen (newTarget args) := by
  refine ⟨rfl, ?_⟩
  rcases removable with forward | demux
  · exact Or.inr ⟨forward, by simp [newTarget, dstBytes, List.take_take]⟩
  · rcases ok.dst with ⟨zero, _⟩ | ⟨_, _, other⟩
    · exact Or.inl ⟨demux, zero⟩
    · exact absurd demux other

theorem not_matches_of_not_removable {type : RuleType} (other : ¬ Removable type) {dst : Option Buf}
    {dstlen : Nat} (t : Target) : ¬ Matches type dst dstlen t := by
  intro matching
  rcases matching.2 with ⟨demux, _⟩ | ⟨forward, _⟩
  · exact other (Or.inr demux)
  · exact other (Or.inl forward)

section Undo

variable {se : ServiceEntry} {args : TargetArgs} {before after : List TargetSet} {item : TargetSet}

variable {fresh : TargetSet} {sets : List TargetSet}

private theorem Slot.mem_before (slot : Slot fresh sets before item after)
    {set : TargetSet} (member : set ∈ before) : set ∈ sets := by
  rcases slot.origin with present | ⟨_, absent⟩
  · rw [present]
    exact List.mem_append_left _ member
  · rw [absent]
    exact List.mem_append_left _ member

private theorem Slot.mem_before_of_above (slot : Slot fresh sets before item after)
    {set : TargetSet} (member : set ∈ sets)
    (higher : fresh.priority < set.priority) : set ∈ before := by
  have notAfter : set ∉ after := by
    intro late
    exact UInt32.lt_irrefl _ (UInt32.lt_trans higher (slot.below set late))
  rcases slot.origin with present | ⟨_, absent⟩
  · rw [present, List.mem_append, List.mem_cons] at member
    rcases member with early | here | late
    · exact early
    · rw [here, slot.here] at higher
      exact absurd higher (UInt32.lt_irrefl _)
    · exact absurd late notAfter
  · rw [absent, List.mem_append] at member
    exact member.resolve_right notAfter

private theorem EntryShape.withTarget_slot (shape : EntryShape se) (args : TargetArgs) :
    ∃ before item after, Slot (targetSetCreate args.flags args.priority) se.targetSet before
          item after ∧
        (se.withTarget args).targetSet =
          before ++ targetSetAddTarget item (newTarget args) :: after :=
  @Descending.slot _ shape.descending
    (targetSetAddTarget · (newTarget args))
    (targetSetCreate args.flags args.priority) rfl

/-- In a set whose last target is the new one, the first match is the new
target when the first match before was. -/
theorem UndoesAt.first_eq (undoes : UndoesAt args se)
    (slot :
      Slot (targetSetCreate args.flags args.priority) se.targetSet before
        item after)
    {t : Target}
    (first :
      (item.list ++ [newTarget args]).find?
        (Matches args.type args.dst args.dstlen ·) = some t) :
    t = newTarget args := by
  rw [List.find?_append] at first
  cases old : item.list.find? (Matches args.type args.dst args.dstlen ·) with
  | none =>
    rw [old, Option.none_or] at first
    exact List.mem_singleton.mp (List.mem_of_find?_eq_some first)
  | some u =>
    rw [old] at first
    cases first
    rcases slot.origin with present | ⟨fresh, _⟩
    · refine undoes.first item ?_ slot.here _ old
      rw [present]
      simp
    · rw [fresh] at old
      cases old

private theorem UndoesAt.firstMatch (undoes : UndoesAt args se) (ok : AddOk args)
    (removable : Removable args.type)
    (slot :
      Slot (targetSetCreate args.flags args.priority) se.targetSet before
        item after)
    (sets :
      (se.withTarget args).targetSet =
        before ++ targetSetAddTarget item (newTarget args) :: after) :
    ∃ targets : Split Target, FirstMatch args.type args.dst args.dstlen
          (se.withTarget args).targetSet
          ⟨⟨before, targetSetAddTarget item (newTarget args), after⟩, targets⟩ ∧
        targets.item = newTarget args := by
  obtain ⟨t, first⟩ : ∃ t, (item.list ++ [newTarget args]).find?
        (Matches args.type args.dst args.dstlen ·) = some t := by
    rw [← Option.isSome_iff_exists, List.find?_isSome]
    exact ⟨newTarget args, by simp, decide_eq_true (ok.newTarget_matches removable)⟩
  have new := undoes.first_eq slot first
  obtain ⟨here, front, back, list, refused⟩ := List.find?_eq_some_iff_append.mp first
  refine ⟨⟨front, t, back⟩, ?_, new⟩
  exact {
    sets := sets
    list := list
    here := of_decide_eq_true here
    earlierSets := by
      intro set early
      exact undoes.above set (slot.mem_before early) (slot.above set early)
    earlier := by
      intro u early
      simpa using refused u early }

/-- With the new target taken out, the sets look as before exactly when a set
that was there is kept. -/
theorem Slot.outline_without (slot : Slot fresh sets before item after)
    (empty : fresh.count = 0) {t : Target} {targets : Split Target}
    (list : item.list ++ [t] = targets.whole) (found : targets.item = t) :
    outline (Located.without ⟨⟨before, targetSetAddTarget item t, after⟩, targets⟩) = outline sets ↔
      (sets = before ++ item :: after → item.count ≠ 0) := by
  have count : (targetSetRemoveTarget (targetSetAddTarget item t) targets).count = item.count :=
    add_sub_cancel_right item.count 1
  have left : ((targets.before ++ targets.after : List Target) : Multiset Target) = item.list := by
    have together := congrArg (fun list : List Target => (list : Multiset Target)) list
    simp only [Split.whole, found, ← Multiset.coe_add, ← Multiset.cons_coe, Multiset.add_cons,
      Multiset.coe_nil, add_zero,
      Multiset.cons_inj_right] at together
    exact together.symm
  simp only [Located.without, unlessEmpty, count]
  by_cases zero : item.count = 0
  · rw [if_pos zero]
    rcases slot.origin with present | ⟨_, absent⟩
    · refine iff_of_false ?_ fun keeps => keeps present zero
      intro same
      have lengths := congrArg List.length same
      rw [present] at lengths
      simp [outline] at lengths
    refine iff_of_true ?_ ?_
    · rw [absent, List.append_nil]
    · intro present
      have lengths := congrArg List.length (absent.symm.trans present)
      simp at lengths
  · rw [if_neg zero]
    rcases slot.origin with present | ⟨same, _⟩
    · refine iff_of_true ?_ fun _ => zero
      rw [present]
      simp only [outline, List.map_append, List.map_cons, List.append_assoc, List.cons_append,
        List.nil_append,
        targetSetRemoveTarget, targetSetAddTarget, left]
    · rw [same] at zero
      exact absurd empty zero

/-- If the sets look as before, the target that was taken out is the new
one. -/
theorem FirstHit.eq_of_outline {test : Target → Except Fault Bool} {found : Located}
    (hit : FirstHit test (se.withTarget args).targetSet found)
    (same : outline found.without = outline se.targetSet) :
    found.sets.item.priority = args.priority ∧ found.targets.item = newTarget args := by
  have added : contents (se.withTarget args).targetSet =
        (args.priority, newTarget args) ::ₘ contents se.targetSet :=
    (targetSetAddTarget_adds (newTarget args)).contents rfl
  have removed := hit.contents_eq
  have fewer := found.contents_without_le
  rw [contents_eq_of_outline same] at fewer
  rw [added] at removed
  have counted := congrArg Multiset.card removed
  rw [Multiset.card_cons, Multiset.card_cons] at counted
  have rest : contents se.targetSet = found.rest := Multiset.eq_of_le_of_card_le fewer (by omega)
  rw [rest, Multiset.cons_inj_left] at removed
  exact ⟨(congrArg Prod.fst removed).symm, (congrArg Prod.snd removed).symm⟩

private theorem FirstHit.sets_eq {test : Target → Except Fault Bool} {found : Located}
    (hit : FirstHit test (se.withTarget args).targetSet found)
    (shape : EntryShape (se.withTarget args))
    (slot :
      Slot (targetSetCreate args.flags args.priority) se.targetSet before
        item after)
    (sets :
      (se.withTarget args).targetSet = before ++ targetSetAddTarget item (newTarget args) :: after)
    (same : found.sets.item.priority = args.priority) :
    found.sets = ⟨before, targetSetAddTarget item (newTarget args), after⟩ := by
  have expected : getTargetSet (se.withTarget args).targetSet args.priority =
        some ⟨before, targetSetAddTarget item (newTarget args), after⟩ := by
    rw [sets]
    refine getTargetSet_append ?_ slot.here
    intro set member equal
    have above := slot.above set member
    rw [equal] at above
    exact UInt32.lt_irrefl _ above
  have here : getTargetSet (se.withTarget args).targetSet args.priority = some found.sets := by
    have descending := shape.descending
    rw [hit.sets] at descending ⊢
    unfold Descending Split.whole at descending
    rw [List.map_append, List.pairwise_append] at descending
    refine getTargetSet_append ?_ same
    intro set member equal
    have above := descending.2.2 _ (List.mem_map_of_mem member) found.sets.item.priority (by simp)
    rw [same, equal] at above
    exact UInt32.lt_irrefl _ above
  rw [here] at expected
  exact Option.some.inj expected

/-- Where the removal finds the new target, the conditions on what is found
first hold. -/
theorem FirstMatch.undoesAt {targets : Split Target}
    (first :
      FirstMatch args.type args.dst args.dstlen
        (se.withTarget args).targetSet
        ⟨⟨before, targetSetAddTarget item (newTarget args), after⟩, targets⟩)
    (slot :
      Slot (targetSetCreate args.flags args.priority) se.targetSet before
        item after)
    (found : targets.item = newTarget args)
    (counts : se.targetSet = before ++ item :: after → item.count ≠ 0) :
    UndoesAt args se where
  above := by
    intro set member higher
    exact first.earlierSets set (slot.mem_before_of_above member higher)
  first := by
    intro set member same t old
    obtain ⟨here, _⟩ := slot.eq_of_priority member same
    rw [here] at old
    have whole : (item.list ++ [newTarget args]).find? (Matches args.type args.dst args.dstlen ·) =
            some targets.item :=
      first.find?_list
    rw [List.find?_append, old] at whole
    rw [Option.some.inj whole, found]
  counts := by
    intro set member same
    obtain ⟨here, present⟩ := slot.eq_of_priority member same
    rw [here]
    exact counts present

/-- Adding a target and removing it again leaves sets that look as before
exactly under the conditions. -/
theorem EntryShape.remove_withTarget (shape : EntryShape se) (ok : AddOk args)
    (removable : Removable args.type) :
    ∃ (found : Located) (stats : TargetStats),
      (se.withTarget args).removeTarget args.type args.dst args.dstlen =
          .ok (some stats, { se.withTarget args with
            targetSet := found.without
            count := (se.withTarget args).count - 1 }) ∧
        (outline found.without = outline se.targetSet ↔ UndoesAt args se) := by
  have shape' := shape.withTarget ok
  obtain ⟨before, item, after, slot, sets⟩ := shape.withTarget_slot args
  rcases shape'.removeTarget args.type ok.dstOk with
    ⟨absent, _⟩ | ⟨found, hit, _, _, run⟩
  · exfalso
    apply absent
    refine ⟨targetSetAddTarget item (newTarget args), ?_, newTarget args, ?_,
      ok.newTarget_matches removable⟩
    · rw [sets]
      simp
    · simp [targetSetAddTarget]
  · refine ⟨found, _, run, ?_⟩
    constructor
    · intro same
      obtain ⟨priority, target⟩ := hit.eq_of_outline same
      have split := hit.sets_eq shape' slot sets priority
      obtain ⟨whole, targets⟩ := found
      subst split
      exact (hit.firstMatch shape' ok.dstOk).undoesAt slot target
        ((slot.outline_without rfl hit.list target).mp same)
    · intro undoes
      obtain ⟨targets, expected, target⟩ := undoes.firstMatch ok removable slot sets
      have same := hit.locate_eq.symm.trans (expected.firstHit shape' ok.dstOk).locate_eq
      cases same
      apply (slot.outline_without rfl hit.list target).mpr
      intro present
      refine undoes.counts item ?_ slot.here
      rw [present]
      simp

end Undo

end Serval
