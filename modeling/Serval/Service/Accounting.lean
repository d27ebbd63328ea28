import Serval.Bst.Sound
import Serval.Service.ReadBack

/-!
# The accounts of the service table

The table counts its entries twice, and every entry has a target. The
functions that take targets away decide each for itself whether an entry has
become empty; the one that removes by device misses an entry that loses its
last targets two or more at a time.
-/

namespace Serval

open Serval.Support

variable {se : ServiceEntry}

private theorem EntryShape.contents_ne_zero (shape : EntryShape se)
    (nonempty : se.targetSet ≠ []) : contents se.targetSet ≠ 0 := by
  obtain ⟨set, member⟩ := List.exists_mem_of_ne_nil _ nonempty
  obtain ⟨t, inSet⟩ := List.exists_mem_of_ne_nil _ (shape.setOk set member).nonempty
  intro empty
  have held : (set.priority, t) ∈ contents se.targetSet :=
    mem_contents.mpr ⟨set, member, rfl, inSet⟩
  rw [empty] at held
  exact absurd held (Multiset.notMem_zero _)

private theorem ne_nil_of_contents {sets : List TargetSet} {entry : UInt32 × Target}
    {rest : Multiset (UInt32 × Target)}
    (holds : contents sets = entry ::ₘ rest) : sets ≠ [] := by
  intro empty
  rw [empty] at holds
  exact absurd holds.symm (Multiset.cons_ne_zero)

private theorem ServiceEntry.withTarget_ne_nil (se : ServiceEntry) (args : TargetArgs) :
    (se.withTarget args).targetSet ≠ [] :=
  ne_nil_of_contents
    ((targetSetAddTarget_adds (newTarget args)).contents rfl)

variable {se' : ServiceEntry}

private theorem EntryShape.modify_ne_nil {ret : Int} (shape : EntryShape se)
    {args : ModifyArgs} (ok : ModifyOk args)
    (changed : se.modifyTarget args Allocs.succeed = .ok (ret, se'))
    (nonempty : se.targetSet ≠ []) : se'.targetSet ≠ [] := by
  rcases shape.modifyTarget ok with
    ⟨other, _, run⟩ | ⟨found, hit, _, _, _, run⟩
  · rw [run] at changed
    cases changed
    exact nonempty
  · rw [run] at changed
    cases changed
    obtain ⟨kept, _, holds, _⟩ := hit.contents_modify shape args
    exact ne_nil_of_contents holds

private theorem EntryShape.afterRemove_ne_nil (shape : EntryShape se)
    {type : RuleType} {dst : Option Buf} {dstlen : Nat}
    (ok : DstOk dst dstlen)
    (stays : afterRemove type dst dstlen se = some se')
    (nonempty : se.targetSet ≠ []) : se'.targetSet ≠ [] := by
  unfold afterRemove at stays
  rcases shape.removeTarget type ok with
    ⟨_, run⟩ | ⟨found, _, _, _, run⟩
  · rw [run] at stays
    cases stays
    exact nonempty
  rw [run] at stays
  simp only [Option.isSome_some, Bool.true_and] at stays
  split at stays
  · cases stays
  · rename_i left
    cases stays
    intro empty
    exact left (List.isEmpty_iff.mpr empty)

/-- All targets of the entry, two or more, are behind the device. -/
def EmptiedUnseen (devname : String) (se : ServiceEntry) : Prop :=
  2 ≤ (contents se.targetSet).card ∧
    ∀ entry ∈ contents se.targetSet, OnDevice devname entry.2

/-- An entry that stays after a removal by device has a target, unless it
has lost two or more at a time. -/
theorem EntryShape.afterDelDev_ne_nil (shape : EntryShape se)
    {devname : String} (small : SmallSets se)
    (seen : ¬ EmptiedUnseen devname se)
    (stays : afterDelDev devname se = some se') (nonempty : se.targetSet ≠ []) :
    se'.targetSet ≠ [] := by
  obtain ⟨removed, sets, run, _, left, counted⟩ := shape.removeTargetByDev devname small
  unfold afterDelDev at stays
  rw [run] at stays
  simp only at stays
  split at stays
  · cases stays
  rename_i notOne
  cases stays
  intro empty
  subst empty
  have someThere := Multiset.card_pos.mpr (shape.contents_ne_zero nonempty)
  rw [contents_nil, Multiset.card_zero] at counted
  have several : removed ≠ 1 := by
    intro one
    apply notOne
    rw [one]
    rfl
  refine seen ⟨by omega, ?_⟩
  intro entry member
  by_contra elsewhere
  have kept : entry ∈ contents [] := by
    rw [left]
    exact Multiset.mem_filter.mpr ⟨member, elsewhere⟩
  exact absurd kept (Multiset.notMem_zero _)

def Sees (table : ServiceTable) : TableOp → Prop
  | .delDevAll devname =>
    ∀ s se, entryAt table s = some se → ¬ EmptiedUnseen devname se
  | _ => True

/-- Both counters are the number of active entries, and each of those has a
target. -/
structure Accounted (table : ServiceTable) : Prop where
  services : table.services = table.tree.entries
  counted : table.tree.Counted
  targets :
    ∀ s se, entryAt table s = some se →
      ∃ set ∈ se.targetSet, ∃ t, t ∈ set.list

def Furnished (m : BitMap ServiceEntry) : Prop := EachEntry (·.targetSet ≠ []) m

section Accounts

variable {table : ServiceTable} {L : Layout} {m m' : BitMap ServiceEntry}
  {tree : Bst ServiceEntry} {op : TableOp}

private theorem AddEffect.furnished {key : List Bool} {args : TargetArgs} {ret : Int}
    (effect : AddEffect m tree key args ret m')
    (furnished : Furnished m) : Furnished m' := by
  cases effect with
  | refused ret other reason => exact furnished
  | extended se valid held free absent =>
    exact EachEntry.insert furnished (se.withTarget_ne_nil args)
  | created p valid absent =>
    exact (EachEntry.survives furnished).insert (serviceEntryCreate.withTarget_ne_nil args)

private theorem TableEffect.furnished (effect : TableEffect tree m op m') (rep : TableRep table L m)
    (allowed : TableAllowed table op) (sees : Sees table op)
    (furnished : Furnished m) : Furnished m' := by
  refine effect.each rep allowed furnished ?_ ?_ ?_ ?_
  · intro srvid bits args ret _ effect
    exact effect.furnished furnished
  · intro srvid bits args se ret se' _ _ shape ok changed
    exact shape.modify_ne_nil ok changed
  · intro type dst dstlen se se' shape ok stays
    exact shape.afterRemove_ne_nil ok stays
  · rintro devname s se se' rfl active shape small stays
    exact shape.afterDelDev_ne_nil small (sees s se active) stays

private theorem TableRep.accounted (rep : TableRep table L m) (few : m.keys.card < 2 ^ 32)
    (furnished : Furnished m) : Accounted table where
  services := rep.services
  counted := rep.tree.counted few
  targets := by
    intro s se active
    rw [rep.entryAt_eq] at active
    obtain ⟨set, member⟩ := List.exists_mem_of_ne_nil _ (furnished s se active)
    have nonempty := ((rep.shape s se active).setOk set member).nonempty
    exact ⟨set, member, List.exists_mem_of_ne_nil _ nonempty⟩

private theorem tableStep_furnished (table : ServiceTable) (op : TableOp)
    (kept : ∃ L m, TableRep table L m ∧ m.keys.card < 2 ^ 32 ∧ Furnished m)
    (allowed : TableAllowed table op ∧ HasTableRoom table op ∧ Sees table op) :
    ∃ table', tableStep table op = .ok table' ∧
      ∃ L m, TableRep table' L m ∧ m.keys.card < 2 ^ 32 ∧ Furnished m := by
  obtain ⟨L, m, rep, few, furnished⟩ := kept
  obtain ⟨callable, room, sees⟩ := allowed
  obtain ⟨table', L', m', run, rep', effect⟩ := rep.step op callable
  exact ⟨table', run, L', m', rep', effect.card_lt rep few room,
    effect.furnished rep callable sees furnished⟩

end Accounts

/-- The accounts are right after every history in which no removal by device
takes the last targets of an entry two or more at a time, the counter does
not wrap, and no value from freed memory is used (the loop of a removal by
device loads one, see `sweepTargets`, and does not look at it). -/
theorem tableHistory_accounted (history : List TableOp)
    (admitted :
      Admits tableStep
        (fun table op =>
          TableAllowed table op ∧ HasTableRoom table op ∧ Sees table op)
        serviceTableInit history) :
    ∃ table, runAll tableStep serviceTableInit history = .ok table ∧ Accounted table := by
  obtain ⟨table, run, L, m, rep, few, furnished⟩ := runAll_keeps tableStep_furnished
      ⟨_, _, serviceTableInit_rep, by decide, EachEntry.empty⟩ admitted
  exact ⟨table, run, rep.accounted few furnished⟩

instance (se : ServiceEntry) : Decidable (SmallSets se) :=
  inferInstanceAs (Decidable (∀ set ∈ se.targetSet, _))

instance (devname : String) (se : ServiceEntry) : Decidable (EmptiedUnseen devname se) :=
  inferInstanceAs (Decidable (2 ≤ (contents se.targetSet).card ∧ _))

def storedEntries (table : ServiceTable) : List ServiceEntry :=
  table.tree.heap.cells.filterMap fun cell => cell.bind (·.priv)

private theorem mem_storedEntries {table : ServiceTable} {s : List Bool}
    (active : entryAt table s = some se) : se ∈ storedEntries table := by
  unfold entryAt at active
  cases here : table.tree.nodeAt s with
  | none => simp [here] at active
  | some n =>
    cases live : table.tree.heap.get? n with
    | none => simp [here, live] at active
    | some node =>
      simp only [here, live] at active
      exact List.mem_filterMap.mpr ⟨some node, Heap.mem_cells_of_get? live, active⟩

private theorem of_storedEntries {table : ServiceTable} {holds : ServiceEntry → Prop}
    (all : ∀ se ∈ storedEntries table, holds se) (s : List Bool)
    (se : ServiceEntry) (active : entryAt table s = some se) : holds se :=
  all se (mem_storedEntries active)

/-- Two targets behind different devices, one of which goes. -/
theorem tableHistory_accounted_sample : ∃ table, runAll tableStep serviceTableInit
          [.add (some sampleId) 3 (forwardRule [10, 0, 0, 1] 1 1 "eth0"),
            .add (some sampleId) 3 (forwardRule [10, 0, 0, 2] 1 1 "eth1"),
            .delDevAll "eth0"] = .ok table ∧ Accounted table := by
  refine tableHistory_accounted _ ?_
  refine ⟨⟨.addForward rfl 1 1 "eth0" (by decide), fun _ => by decide, trivial⟩, ?_⟩
  rintro _ ⟨rfl⟩
  refine ⟨⟨.addForward rfl 1 1 "eth1" (by decide), fun _ => by decide, trivial⟩, ?_⟩
  rintro _ ⟨rfl⟩
  refine ⟨⟨⟨trivial, fun lonely => absurd lonely (by decide), ?_⟩, fun _ => by decide, ?_⟩, ?_⟩
  · exact of_storedEntries (by decide)
  · exact of_storedEntries (by decide)
  intro _ _
  trivial

/-- Two targets of one entry behind one device: when the device goes, the
entry stays, without a target. And when the target of a default service goes
that is alone in the table, the code looks at the root after freeing it. -/
theorem delDevAll_leaves_empty : (∃ table se, Admits tableStep TableAllowed serviceTableInit
            [.add (some sampleId) 3 (forwardRule [10, 0, 0, 1] 1 1 "eth0"), .add (some sampleId) 3
                (forwardRule [10, 0, 0, 2] 1 1 "eth0"),
              .delDevAll "eth0"] ∧
          runAll tableStep serviceTableInit
              [.add (some sampleId) 3 (forwardRule [10, 0, 0, 1] 1 1 "eth0"), .add (some sampleId) 3
                  (forwardRule [10, 0, 0, 2] 1 1 "eth0"),
                .delDevAll "eth0"] = .ok table ∧ entryAt table [true, false, true] = some se ∧
          se.targetSet = [] ∧ ¬ Accounted table) ∧
      runAll tableStep serviceTableInit
          [.add (some defaultService) 0 (forwardRule [10, 0, 0, 1] 1 1 "eth0"),
            .delTarget defaultService 0 .forward
              (some ⟨0, [10, 0, 0, 1]⟩) 4] = .error .freed := by
  constructor
  · refine ⟨_, _, ⟨.addForward rfl 1 1 "eth0" (by decide), ?_⟩, rfl, rfl, rfl, ?_⟩
    · rintro _ ⟨rfl⟩
      refine ⟨.addForward rfl 1 1 "eth0" (by decide), ?_⟩
      rintro _ ⟨rfl⟩
      refine ⟨⟨trivial, fun lonely => absurd lonely (by decide), of_storedEntries (by decide)⟩, ?_⟩
      intro _ _
      trivial
    · intro accounted
      obtain ⟨set, member, _⟩ := accounted.targets [true, false, true] _ rfl
      cases member
  · rfl

end Serval
