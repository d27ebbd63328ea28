import Serval.Support.Serial
import Serval.Support.Run
import Serval.Service.EntrySweep

/-!
# Histories of one entry

Any sequence of the four operations leaves an entry whose sets stand in
strictly decreasing priority, are never empty and are counted and weighed
exactly, as long as fewer than `2 ^ 16` targets are alive.
-/

namespace Serval

open Serval.Support

inductive EntryOp where
  | add (args : TargetArgs)
  | modify (args : ModifyArgs)
  | remove (type : RuleType) (dst : Option Buf) (dstlen : Nat)
  | removeByDev (ifname : String)

def entryStep (se : ServiceEntry) : EntryOp → Except Fault ServiceEntry
  | .add args => do
    let (_, se) ← se.addTarget args Allocs.succeed
    return se
  | .modify args => do
    let (_, se) ← se.modifyTarget args Allocs.succeed
    return se
  | .remove type dst dstlen => do
    let (_, se) ← se.removeTarget type dst dstlen
    return se
  | .removeByDev ifname => do
    let (_, se) ← se.removeTargetByDev ifname
    return se

def EntryCallable : EntryOp → Prop
  | .add args => AddOk args
  | .modify args => ModifyOk args
  | .remove _ dst dstlen => DstOk dst dstlen
  | .removeByDev _ => True

def alive (se : ServiceEntry) : Nat := (contents se.targetSet).card

/-- The operation is called as promised and leaves fewer than `2 ^ 16`
targets. -/
def EntryAllowed (se : ServiceEntry) (op : EntryOp) : Prop :=
  EntryCallable op ∧
    ∀ se', entryStep se op = .ok se' → alive se' < 2 ^ 16

structure EntryOk (se : ServiceEntry) : Prop extends EntryShape se where
  total : se.count = UInt32.ofNat (alive se)

theorem list_length_le_alive {se : ServiceEntry} {set : TargetSet} (member : set ∈ se.targetSet) :
    set.list.length ≤ alive se := by
  obtain ⟨before, after, together⟩ := List.append_of_mem member
  have counted : alive se = (contents before).card + (set.list.length + (contents after).card) := by
    simp [alive, together, contents_cons]
  omega

section Step

variable {se : ServiceEntry}

private theorem EntryOk.small_sets (small : alive se < 2 ^ 16) :
    ∀ set ∈ se.targetSet, set.list.length ≤ 2 ^ 16 := by
  intro set member
  have fewer := list_length_le_alive member
  omega

private theorem EntryOk.add (ok : EntryOk se) {args : TargetArgs} (callable : AddOk args) :
    ∃ se', entryStep se (.add args) = .ok se' ∧ EntryOk se' := by
  rcases ok.toEntryShape.addTarget callable with
    ⟨_, ret, _, run⟩ | ⟨_, run⟩
  · exact ⟨se, by simp [entryStep, run], ok⟩
  refine ⟨se.withTarget args, by simp [entryStep, run], ok.toEntryShape.withTarget callable, ?_⟩
  have more : alive (se.withTarget args) = alive se + 1 := by
    unfold alive ServiceEntry.withTarget
    rw [(targetSetAddTarget_adds (newTarget args)).contents rfl, Multiset.card_cons]
  rw [more, ← ofNat_succ, ← ok.total]
  rfl

private theorem EntryOk.modify (ok : EntryOk se) (small : alive se < 2 ^ 16) {args : ModifyArgs}
    (callable : ModifyOk args) :
    ∃ se', entryStep se (.modify args) = .ok se' ∧ EntryOk se' := by
  rcases ok.toEntryShape.modifyTarget callable with
    ⟨ret, _, run⟩ | ⟨found, hit, _, _, _, run⟩
  · exact ⟨se, by simp [entryStep, run], ok⟩
  refine ⟨{ se with targetSet := found.modify args }, by simp [entryStep, run],
    hit.modify_shape ok.toEntryShape callable, ?_⟩
  obtain ⟨kept, _, holds, _, exact⟩ := hit.contents_modify ok.toEntryShape args
  have same : alive { se with targetSet := found.modify args } = alive se := by
    unfold alive
    rw [holds, exact (EntryOk.small_sets small _ hit.set_mem), hit.contents_eq, Multiset.card_cons,
      Multiset.card_cons]
  rw [same]
  exact ok.total

/-- A removal takes out at most one target, and only one that matches. -/
theorem EntryOk.remove (ok : EntryOk se) (small : alive se < 2 ^ 16) (type : RuleType)
    {dst : Option Buf} {dstlen : Nat} (callable : DstOk dst dstlen) :
    ∃ stats se', se.removeTarget type dst dstlen = .ok (stats, se') ∧ EntryOk se' ∧
      ∃ removed, contents se.targetSet = removed + contents se'.targetSet ∧
          ∀ entry ∈ removed, Matches type dst dstlen entry.2 := by
  rcases ok.toEntryShape.removeTarget type callable with
    ⟨_, run⟩ | ⟨found, hit, here, _, run⟩
  · exact ⟨none, se, run, ok, 0, by simp, by simp⟩
  have left := hit.contents_without ok.toEntryShape (EntryOk.small_sets small _ hit.set_mem)
  have together : contents se.targetSet = {(found.sets.item.priority, found.targets.item)} +
          contents found.without := by
    rw [left, hit.contents_eq, Multiset.singleton_add]
  refine ⟨_, _, run, ⟨hit.without_shape ok.toEntryShape _, ?_⟩, _, together, ?_⟩
  · change se.count - 1 = UInt32.ofNat (contents found.without).card
    rw [ok.total, alive, together, Multiset.card_add, Multiset.card_singleton, Nat.add_comm,
      ofNat_succ_sub_one]
  · intro entry member
    rw [Multiset.mem_singleton.mp member]
    exact here

theorem EntryOk.removeByDev (ok : EntryOk se) (small : alive se < 2 ^ 16) (ifname : String) :
    ∃ count se', se.removeTargetByDev ifname = .ok (count, se') ∧ EntryOk se' ∧
      ∃ removed, contents se.targetSet = removed + contents se'.targetSet ∧
          ∀ entry ∈ removed, OnDevice ifname entry.2 := by
  obtain ⟨removed, sets, run, shape, left, counted⟩ :=
    ok.toEntryShape.removeTargetByDev ifname (EntryOk.small_sets small)
  refine ⟨removed, _, run, ⟨shape _, ?_⟩,
    (contents se.targetSet).filter fun entry => OnDevice ifname entry.2,
    ?_, ?_⟩
  · change se.count - UInt32.ofNat removed = UInt32.ofNat (contents sets).card
    rw [ok.total, alive, ← counted, ofNat_add_sub_ofNat]
  · rw [left]
    exact (Multiset.filter_add_not _ _).symm
  · intro entry member
    exact (Multiset.mem_filter.mp member).2

end Step

private theorem entryStep_keeps (se : ServiceEntry) (op : EntryOp)
    (kept : EntryOk se ∧ alive se < 2 ^ 16) (allowed : EntryAllowed se op) :
    ∃ se', entryStep se op = .ok se' ∧ EntryOk se' ∧ alive se' < 2 ^ 16 := by
  obtain ⟨ok, small⟩ := kept
  obtain ⟨callable, stays⟩ := allowed
  have finish (next : ∃ se', entryStep se op = .ok se' ∧ EntryOk se') :
      ∃ se', entryStep se op = .ok se' ∧ EntryOk se' ∧ alive se' < 2 ^ 16 := by
    obtain ⟨se', run, ok'⟩ := next
    exact ⟨se', run, ok', stays se' run⟩
  apply finish
  cases op with
  | add args => exact ok.add callable
  | modify args => exact ok.modify small callable
  | remove type dst dstlen =>
    obtain ⟨stats, se', run, ok', _⟩ := ok.remove small type callable
    exact ⟨se', by simp [entryStep, run], ok'⟩
  | removeByDev ifname =>
    obtain ⟨count, se', run, ok', _⟩ := ok.removeByDev small ifname
    exact ⟨se', by simp [entryStep, run], ok'⟩

/-- The sets are in order, and the counters right. -/
structure EntrySound (se : ServiceEntry) : Prop where
  descending : se.targetSet.Pairwise fun above below => below.priority < above.priority
  nonempty : ∀ set ∈ se.targetSet, set.list ≠ []
  count : ∀ set ∈ se.targetSet, set.count.toNat = set.list.length
  normalizer :
    ∀ set ∈ se.targetSet, set.normalizer.toNat = (set.list.map (·.weight.toNat)).sum % 2 ^ 32
  total : se.count.toNat = (se.targetSet.map (·.list.length)).sum
  first :
    ∀ set rest, se.targetSet = set :: rest →
      set.list ≠ [] ∧ ∀ other ∈ rest, other.priority < set.priority

structure RemovesOnlyMatching (se : ServiceEntry) : Prop where
  remove :
    ∀ type dst dstlen, DstOk dst dstlen →
      ∃ stats se', se.removeTarget type dst dstlen = .ok (stats, se') ∧
        ∃ removed, contents se.targetSet = removed + contents se'.targetSet ∧
            ∀ entry ∈ removed, Matches type dst dstlen entry.2
  removeByDev :
    ∀ ifname, ∃ count se', se.removeTargetByDev ifname = .ok (count, se') ∧
        ∃ removed, contents se.targetSet = removed + contents se'.targetSet ∧
            ∀ entry ∈ removed, OnDevice ifname entry.2

private theorem toNat_sum (weights : List UInt32) :
    weights.sum.toNat = (weights.map (·.toNat)).sum % 2 ^ 32 := by
  induction weights with
  | nil => rfl
  | cons weight rest ih =>
    rw [List.sum_cons, UInt32.toNat_add, ih, List.map_cons, List.sum_cons, Nat.add_mod_mod]

private theorem card_contents (sets : List TargetSet) :
    (contents sets).card = (sets.map (·.list.length)).sum := by
  induction sets with
  | nil => rfl
  | cons set rest ih =>
    rw [contents_cons, Multiset.card_add, ih]
    simp

private theorem EntryOk.sound {se : ServiceEntry} (ok : EntryOk se) (small : alive se < 2 ^ 16) :
    EntrySound se where
  descending := List.pairwise_map.mp ok.descending
  nonempty := fun set member => (ok.setOk set member).nonempty
  count := by
    intro set member
    have fewer := list_length_le_alive member
    rw [(ok.setOk set member).count, UInt16.toNat_ofNat_of_lt']
    change _ < 2 ^ 16
    omega
  normalizer := by
    intro set member
    rw [(ok.setOk set member).normalizer, toNat_sum, List.map_map]
    rfl
  total := by
    rw [ok.total, UInt32.toNat_ofNat_of_lt', alive, card_contents]
    change alive se < 2 ^ 32
    omega
  first := by
    intro set rest together
    have ordered := List.pairwise_map.mp ok.descending
    rw [together] at ordered
    have member : set ∈ se.targetSet := by
      rw [together]
      exact List.mem_cons_self
    exact ⟨(ok.setOk set member).nonempty, (List.pairwise_cons.mp ordered).1⟩

/-- Every history with fewer than `2 ^ 16` targets alive runs without a fault
to an entry in order. -/
theorem entryHistory_sound (history : List EntryOp)
    (admitted : Admits entryStep EntryAllowed serviceEntryCreate history) :
    ∃ se, runAll entryStep serviceEntryCreate history = .ok se ∧
      EntrySound se ∧ RemovesOnlyMatching se := by
  have start : EntryOk serviceEntryCreate ∧ alive serviceEntryCreate < 2 ^ 16 :=
    ⟨⟨serviceEntryCreate_shape, rfl⟩, by decide⟩
  obtain ⟨se, run, ok, small⟩ := runAll_keeps entryStep_keeps start admitted
  refine ⟨se, run, ok.sound small, ?_, ?_⟩
  · intro type dst dstlen callable
    obtain ⟨stats, se', ran, _, removed⟩ := ok.remove small type callable
    exact ⟨stats, se', ran, removed⟩
  · intro ifname
    obtain ⟨count, se', ran, _, removed⟩ := ok.removeByDev small ifname
    exact ⟨count, se', ran, removed⟩

/-- Two targets in one set; one of them moves to a set of its own and is
removed again with that set. -/
theorem entryHistory_sound_move : ∃ se, runAll entryStep serviceEntryCreate
          [.add (forwardRule [10, 0, 0, 1] 7 3 "eth0"), .add (forwardRule [10, 0, 0, 2] 7 4 "eth1"),
            .modify
              { type := .forward, flags := 0, priority := 9, weight := 5
                dst := some ⟨0, [10, 0, 0, 1]⟩, dstlen := 4
                newDst := none, newDstlen := 0 },
            .remove .forward (some ⟨0, [10, 0, 0, 1]⟩) 4,
            .removeByDev "eth0"] = .ok se ∧ EntrySound se ∧ RemovesOnlyMatching se := by
  refine entryHistory_sound _ ?_
  refine ⟨⟨forwardRule_ok rfl .., ?_⟩, ?_⟩
  · rintro _ ⟨rfl⟩
    decide
  rintro _ ⟨rfl⟩
  refine ⟨⟨forwardRule_ok rfl .., ?_⟩, ?_⟩
  · rintro _ ⟨rfl⟩
    decide
  rintro _ ⟨rfl⟩
  refine ⟨⟨⟨Or.inr ⟨rfl, _, rfl, rfl⟩, Or.inl rfl⟩, ?_⟩, ?_⟩
  · rintro _ ⟨rfl⟩
    decide
  rintro _ ⟨rfl⟩
  refine ⟨⟨Or.inr ⟨rfl, _, rfl, rfl⟩, ?_⟩, ?_⟩
  · rintro _ ⟨rfl⟩
    decide
  rintro _ ⟨rfl⟩
  refine ⟨⟨trivial, ?_⟩, ?_⟩
  · rintro _ ⟨rfl⟩
    decide
  intro _ _
  trivial

end Serval
