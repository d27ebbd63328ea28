import Serval.Service.EntryUndo
import Serval.Service.Isolation

/-!
# Adding a target and deleting it again

A rule that `service_add` has stored should go when `service_del_target` is
called with the same arguments, and leave the table as it was. The two
functions differ in how they treat the all-zero id, in the rule types they
know and in the target they look for, so that this holds under conditions on
the table.
-/

namespace Serval

open Serval.Support

def content (table : ServiceTable) (s : List Bool) :
    Option (List (UInt32 × UInt16 × Multiset Target)) :=
  (entryAt table s).map fun se => outline se.targetSet

/-- When a removal finds just what was added. -/
structure Undoes (table : ServiceTable) (srvid : ServiceId) (prefixBits : Nat)
    (args : TargetArgs) : Prop where
  removable : Removable args.type
  longest :
    ∀ s, s <+: prefixOf srvid prefixBits → (storedPrefix srvid prefixBits).length < s.length →
      entryAt table s = none
  present :
    ∀ se, entryAt table (storedPrefix srvid prefixBits) = some se →
      se.targetSet ≠ [] ∧ UndoesAt args.weighted se
  absent :
    entryAt table (storedPrefix srvid prefixBits) = none →
      table.tree.entries = 0 → (∀ s, entryAt table s = none) ∧ storedPrefix srvid prefixBits ≠ []

/-- The removal gives the old contents back. -/
def Restored (before added : ServiceTable) (srvid : ServiceId) (prefixBits : Nat)
    (args : TargetArgs) : Prop :=
  ∃ stats after, serviceDelTarget added srvid prefixBits args.type args.dst args.dstlen =
        .ok (stats, after) ∧
      ∀ s, content after s = content before s

private theorem TableAddOk.dstOk {args : TargetArgs} (ok : TableAddOk args) :
    DstOk args.dst args.dstlen := by
  rcases ok.dst with ⟨zero, _⟩ | ⟨addressed, _⟩
  · exact Or.inl zero
  · exact Or.inr addressed

private theorem storedPrefix_initial (srvid : ServiceId) (bits : Nat) :
    storedPrefix srvid bits <+: prefixOf srvid bits := by
  apply takeBits_isPrefixOf
  unfold storedBits
  split
  · exact Nat.zero_le _
  · exact le_rfl

section Maps

variable {table : ServiceTable} {L : Layout} {m m' : BitMap ServiceEntry}
  {tree : Bst ServiceEntry} {key : List Bool} {args : TargetArgs}

private theorem TableRep.content_eq (rep : TableRep table L m) (s : List Bool) :
    content table s = (m.lookup s).map fun se => outline se.targetSet := by
  rw [content, rep.entryAt_eq]

private theorem TableRep.delTarget_of_ok (rep : TableRep table L m) {srvid : ServiceId} {bits : Nat}
    (short : bits ≤ 256) {type : RuleType} {dst : Option Buf}
    {dstlen : Nat} (ok : DstOk dst dstlen) {stats : Option TargetStats}
    {after : ServiceTable}
    (run : serviceDelTarget table srvid bits type dst dstlen = .ok (stats, after))
    {s : List Bool} {se : ServiceEntry}
    (longest : IsLongest (· ∈ m) (prefixOf srvid bits) s)
    (held : m.lookup s = some se) :
    ∃ L', TableRep after L'
      (m.assign s (afterRemove type dst dstlen se)) := by
  have allowed : TableAllowed table (.delTarget srvid bits type dst dstlen) :=
    ⟨⟨short, ok⟩, rep.keepsRoot_of_ok short ok run, trivial⟩
  obtain ⟨table', L', m', ran, rep', effect⟩ := rep.step _ allowed
  have same : table' = after := by
    simp only [tableStep, run, ok_bind, pure_eq_ok] at ran
    exact (Except.ok.inj ran).symm
  subst same
  cases effect with
  | delTargetAbsent _ _ _ _ _ absent =>
    exact absurd longest.here (absent s longest.begins)
  | delTarget _ _ _ _ _ t other isLongest here =>
    have equal := longest.unique isLongest
    subst equal
    cases held.symm.trans here
    exact ⟨L', rep'⟩

private theorem AddEffect.changes (effect : AddEffect m tree key args 1 m') :
    ∃ se', m'.lookup key = some se' ∧
      some (outline se'.targetSet) ≠ (m.lookup key).map fun se => outline se.targetSet := by
  cases effect with
  | refused ret other reason => exact absurd rfl other
  | extended se valid held free absent =>
    refine ⟨_, Finmap.lookup_insert m, ?_⟩
    rw [held]
    intro same
    exact se.outline_withTarget_ne args (Option.some.inj same)
  | created p valid absent =>
    refine ⟨_, Finmap.lookup_insert _, ?_⟩
    rw [absent]
    simp

end Maps

section Restored

variable {table added : ServiceTable} {L L' : Layout}
  {m m' : BitMap ServiceEntry} {srvid : ServiceId} {bits : Nat}
  {args : TargetArgs} {key : List Bool}

variable {se : ServiceEntry} {s : List Bool}

private theorem TableRep.restored_iff_lookup (rep : TableRep table L m)
    (rep' : TableRep added L' m') (short : bits ≤ 256)
    (ok : DstOk args.dst args.dstlen)
    (longest : IsLongest (· ∈ m') (prefixOf srvid bits) key)
    (held : m'.lookup key = some se)
    (company :
      afterRemove args.type args.dst args.dstlen se = none →
        key ≠ [] ∨ ∃ b q, L'.place [b] = some q) :
    Restored table added srvid bits args ↔
      ∀ s, ((m'.assign key (afterRemove args.type args.dst args.dstlen se)).lookup s).map
          (fun se => outline se.targetSet) =
        (m.lookup s).map fun se => outline se.targetSet := by
  constructor
  · intro restored s
    obtain ⟨stats, after, run, same⟩ := restored
    obtain ⟨_, rep''⟩ := rep'.delTarget_of_ok short ok run longest held
    rw [← rep''.content_eq, ← rep.content_eq]
    exact same s
  · intro same
    rcases rep'.delTarget srvid short args.type ok with
      ⟨absent, _⟩ | ⟨t, other, isLongest, here, removes⟩
    · exact absurd longest.here (absent key longest.begins)
    have equal := longest.unique isLongest
    subst equal
    cases held.symm.trans here
    obtain ⟨stats, after, _, run, _, rep''⟩ := removes company
    refine ⟨stats, after, run, ?_⟩
    intro s
    rw [rep''.content_eq, rep.content_eq]
    exact same s

private theorem TableRep.restored_key (rep : TableRep table L m)
    (rep' : TableRep added L' m') (short : bits ≤ 256)
    (ok : DstOk args.dst args.dstlen)
    (longest : IsLongest (· ∈ m') (prefixOf srvid bits) key)
    (held : m'.lookup key = some se)
    (restored : Restored table added srvid bits args) :
    (afterRemove args.type args.dst args.dstlen se).map
        (fun se => outline se.targetSet) =
      (m.lookup key).map fun se => outline se.targetSet := by
  obtain ⟨stats, after, run, same⟩ := restored
  obtain ⟨_, rep''⟩ := rep'.delTarget_of_ok short ok run longest held
  have here := same key
  rw [rep''.content_eq, rep.content_eq, BitMap.lookup_assign, if_pos rfl] at here
  exact here

private theorem EntryShape.afterRemove_of_not_removable (shape : EntryShape se)
    (ok : DstOk args.dst args.dstlen) (other : ¬ Removable args.type) :
    afterRemove args.type args.dst args.dstlen se = some se := by
  apply shape.afterRemove_of_absent ok
  intro present
  obtain ⟨set, _, t, _, matching⟩ := present
  exact not_matches_of_not_removable other t matching

private theorem TableRep.restored_extended (rep : TableRep table L m)
    (held : m.lookup key = some se) (addOk : AddOk args)
    (rep' : TableRep added L' (m.insert key (se.withTarget args)))
    (short : bits ≤ 256)
    (longest :
      IsLongest (· ∈ m.insert key (se.withTarget args))
        (prefixOf srvid bits) key) :
    Restored table added srvid bits args ↔
      Removable args.type ∧ se.targetSet ≠ [] ∧ UndoesAt args se := by
  have shape := rep.shape key se held
  have ok := addOk.dstOk
  have stored : (m.insert key (se.withTarget args)).lookup key = some (se.withTarget args) :=
    Finmap.lookup_insert m
  have restored_key (restored : Restored table added srvid bits args) :=
    rep.restored_key rep' short ok longest stored restored
  by_cases removable : Removable args.type
  · obtain ⟨found, stats, run, undone⟩ := shape.remove_withTarget addOk removable
    have after : afterRemove args.type args.dst args.dstlen (se.withTarget args) =
          if found.without.isEmpty then none
          else some { se.withTarget args with
            targetSet := found.without
            count := (se.withTarget args).count - 1 } := by
      simp only [afterRemove, run, Option.isSome_some, Bool.true_and]
    by_cases empty : found.without = []
    · rw [empty] at after undone
      constructor
      · intro restored
        have here := restored_key restored
        rw [after, held] at here
        cases here
      · intro conditions
        obtain ⟨_, nonempty, undoes⟩ := conditions
        have same := undone.mpr undoes
        exact absurd ((outline_eq_nil_iff _).mp same.symm) nonempty
    · rw [if_neg (by simpa using empty)] at after
      rw [rep.restored_iff_lookup rep' short ok longest stored (by
        rw [after]
        intro goes
        cases goes), after]
      constructor
      · intro same
        have here := same key
        rw [BitMap.lookup_assign, if_pos rfl, held] at here
        have outlines : outline found.without = outline se.targetSet := Option.some.inj here
        refine ⟨removable, ?_, undone.mp outlines⟩
        intro none
        rw [none] at outlines
        exact empty ((outline_eq_nil_iff _).mp outlines)
      · intro conditions s
        rw [BitMap.lookup_assign]
        by_cases here : s = key
        · rw [if_pos here, here, held]
          exact congrArg some (undone.mpr conditions.2.2)
        · rw [if_neg here, BitMap.lookup_insert_eq, if_neg here]
  · refine iff_of_false ?_ fun conditions => removable conditions.1
    intro restored
    have here := restored_key restored
    rw [(shape.withTarget addOk).afterRemove_of_not_removable ok removable, held] at here
    exact se.outline_withTarget_ne args (Option.some.inj here)

private theorem TableRep.lonely_of_alone
    (rep : TableRep table L m) {root : Ptr} (rooted : L.place [] = some root)
    (alone : ∀ b, L.place [b] = none) : lonelyRoot table = true := by
  obtain ⟨node, live, ok⟩ := rep.tree.node [] root rooted
  unfold lonelyRoot
  rw [rep.tree.root, rooted]
  simp only [live]
  rw [ok.left, ok.right, List.nil_append, List.nil_append, alone, alone]
  rfl

/-- A root with an entry has a child when there is an entry elsewhere. -/
theorem TableRep.child_of_mem (rep : TableRep table L m)
    (held : m.lookup s = some se) (notRoot : s ≠ []) :
    ∃ b q, L.place [b] = some q := by
  obtain ⟨p, placed⟩ := rep.placed held
  cases s with
  | nil => exact absurd rfl notRoot
  | cons b rest =>
    obtain ⟨q, below⟩ := Layout.place_of_prefix (List.prefix_append [b] rest) placed
    exact ⟨b, q, below⟩

theorem afterRemove_freshEntry (addOk : AddOk args) (removable : Removable args.type) (p : Ptr) :
    afterRemove args.type args.dst args.dstlen (freshEntry args p) =
      none := by
  have shape : EntryShape { serviceEntryCreate with node := some p } := {
    descending := serviceEntryCreate_shape.descending
    setOk := serviceEntryCreate_shape.setOk
    targetOk := serviceEntryCreate_shape.targetOk }
  obtain ⟨found, stats, run, undone⟩ := shape.remove_withTarget addOk removable
  have undoes : UndoesAt args { serviceEntryCreate with node := some p } := {
    above := by
      intro set member
      cases member
    first := by
      intro set member
      cases member
    counts := by
      intro set member
      cases member }
  have empty : found.without = [] := (outline_eq_nil_iff _).mp (undone.mpr undoes)
  change afterRemove args.type args.dst args.dstlen
    (ServiceEntry.withTarget { serviceEntryCreate with node := some p } args) = none
  simp only [afterRemove, run, empty]
  rfl

/-- A deletion that returns and takes the entry of the root has found a child
of the root. -/
theorem TableRep.child_of_goes (rep : TableRep table L m) (short : bits ≤ 256)
    (ok : DstOk args.dst args.dstlen)
    {result : Option TargetStats × ServiceTable}
    (run :
      serviceDelTarget table srvid bits args.type args.dst args.dstlen =
        .ok result) (held : m.lookup [] = some se)
    (goes : afterRemove args.type args.dst args.dstlen se = none) :
    ∃ b q, L.place [b] = some q := by
  by_contra childless
  have alone (b : Bool) : L.place [b] = none := by
    cases placed : L.place [b] with
    | none => rfl
    | some q => exact absurd ⟨b, q, placed⟩ childless
  obtain ⟨root, rooted⟩ := rep.placed held
  have last := ((rep.shape [] se held).afterRemove_eq_none_iff args.type ok).mp goes
  exact rep.keepsRoot_of_ok short ok run (rep.lonely_of_alone rooted alone)
    se ((rep.entryAt_eq []).trans held) last

/-- A root that gets its first entry has a child when entries are counted. -/
theorem TableRep.child_of_counted (rep : TableRep table L m)
    (absent : m.lookup [] = none) (counted : table.tree.entries ≠ 0)
    (rep' : TableRep added L' (m.insert [] se)) :
    ∃ b q, L'.place [b] = some q := by
  have nonempty : m.keys.card ≠ 0 := by
    intro none
    apply counted
    rw [rep.tree.entries, none]
    rfl
  obtain ⟨s, present⟩ := Finset.card_ne_zero.mp nonempty
  obtain ⟨other, held⟩ := Finmap.mem_iff.mp (Finmap.mem_keys.mp present)
  have notRoot : s ≠ [] := by
    intro atRoot
    rw [atRoot, absent] at held
    cases held
  have kept : (m.insert [] se).lookup s = some other := by
    rw [BitMap.lookup_insert_eq, if_neg notRoot, held]
  exact rep'.child_of_mem kept notRoot

variable {p : Ptr} {tree : Bst ServiceEntry}

/-- The prefix had no entry, and the new one goes with its target. -/
theorem TableRep.restored_created_removable (rep : TableRep table L m)
    (absent : m.lookup key = none) (addOk : AddOk args)
    (removable : Removable args.type)
    (rep' : TableRep added L' ((survives table.tree m).insert key (freshEntry args p)))
    (fresh : table.tree.entries = 0 → ∀ s q, L'.place s = some q → s <+: key)
    (short : bits ≤ 256)
    (longest :
      IsLongest
        (· ∈ (survives table.tree m).insert key (freshEntry args p))
        (prefixOf srvid bits) key) :
    Restored table added srvid bits args ↔
      (table.tree.entries = 0 → (∀ s, m.lookup s = none) ∧ key ≠ []) := by
  have ok := addOk.dstOk
  have stored : ((survives table.tree m).insert key (freshEntry args p)).lookup key =
        some (freshEntry args p) :=
    Finmap.lookup_insert _
  have goes := afterRemove_freshEntry addOk removable p
  have idle : (survives table.tree m).lookup key = none := survives_absent absent
  have taken := BitMap.assign_none_insert idle (freshEntry args p)
  constructor
  · intro restored zero
    obtain ⟨stats, after, run, same⟩ := restored
    obtain ⟨_, rep''⟩ := rep'.delTarget_of_ok short ok run longest stored
    rw [goes, taken] at rep''
    constructor
    · intro s
      have here := same s
      rw [rep''.content_eq, rep.content_eq, survives, if_pos zero] at here
      exact Option.map_eq_none_iff.mp here.symm
    · intro atRoot
      subst atRoot
      obtain ⟨b, q, placed⟩ := rep'.child_of_goes short ok run stored goes
      have nothing := List.prefix_nil.mp (fresh zero [b] q placed)
      cases nothing
  · intro room
    have kept : survives table.tree m = m := by
      by_cases zero : table.tree.entries = 0
      · rw [survives, if_pos zero]
        apply Finmap.ext_lookup
        intro s
        rw [(room zero).1 s]
        exact Finmap.lookup_empty s
      · rw [survives, if_neg zero]
    have company : key ≠ [] ∨ ∃ b q, L'.place [b] = some q := by
      by_cases atRoot : key = []
      · right
        subst atRoot
        have counted : table.tree.entries ≠ 0 := fun zero =>
          (room zero).2 rfl
        rw [kept] at rep'
        exact rep.child_of_counted absent counted rep'
      · exact Or.inl atRoot
    rw [rep.restored_iff_lookup rep' short ok longest stored fun _ => company, goes, taken, kept]
    intro s
    rfl

private theorem TableRep.restored_created (rep : TableRep table L m)
    (absent : m.lookup key = none) (addOk : AddOk args)
    (rep' : TableRep added L' ((survives table.tree m).insert key (freshEntry args p)))
    (fresh : table.tree.entries = 0 → ∀ s q, L'.place s = some q → s <+: key)
    (short : bits ≤ 256)
    (longest :
      IsLongest
        (· ∈ (survives table.tree m).insert key (freshEntry args p))
        (prefixOf srvid bits) key) :
    Restored table added srvid bits args ↔
      Removable args.type ∧ (table.tree.entries = 0 → (∀ s, m.lookup s = none) ∧ key ≠ []) := by
  by_cases removable : Removable args.type
  · rw [rep.restored_created_removable absent addOk removable rep' fresh short longest]
    exact ⟨fun room => ⟨removable, room⟩, And.right⟩
  refine iff_of_false ?_ fun conditions => removable conditions.1
  intro restored
  have ok := addOk.dstOk
  have stored : ((survives table.tree m).insert key
        (freshEntry args p)).lookup key = some (freshEntry args p) :=
    Finmap.lookup_insert _
  have here := rep.restored_key rep' short ok longest stored restored
  rw [(rep'.shape key _ stored).afterRemove_of_not_removable ok removable, absent] at here
  cases here

private theorem TableRep.not_restored_elsewhere (rep : TableRep table L m)
    (rep' : TableRep added L' m') {stored : TargetArgs}
    (effect : AddEffect m tree key stored 1 m') (short : bits ≤ 256)
    (ok : DstOk args.dst args.dstlen)
    (longest : IsLongest (· ∈ m') (prefixOf srvid bits) s)
    (elsewhere : s ≠ key) : ¬ Restored table added srvid bits args := by
  intro restored
  obtain ⟨stats, after, run, same⟩ := restored
  obtain ⟨se, held⟩ := Finmap.mem_iff.mp longest.here
  obtain ⟨_, rep''⟩ := rep'.delTarget_of_ok short ok run longest held
  obtain ⟨se', here, changed⟩ := effect.changes
  have atKey := same key
  rw [rep''.content_eq, rep.content_eq, BitMap.lookup_assign, if_neg (Ne.symm elsewhere),
    here] at atKey
  exact changed atKey

private theorem AddEffect.not_absent (srvid : ServiceId) (bits : Nat)
    (effect : AddEffect m tree (storedPrefix srvid bits) args 1 m')
    {holds : Prop} :
    ¬ (holds ∧ ∀ s, s <+: takeBits srvid.sid bits → s ∉ m') := by
  intro absent
  obtain ⟨se, held, _⟩ := effect.changes
  exact absent.2 _ (storedPrefix_initial srvid bits) (Finmap.mem_of_lookup_eq_some held)

private theorem TableRep.not_undoes_elsewhere (rep : TableRep table L m) {stored : TargetArgs}
    (effect : AddEffect m tree (storedPrefix srvid bits) stored 1 m')
    (longest : IsLongest (· ∈ m') (prefixOf srvid bits) s)
    (elsewhere : s ≠ storedPrefix srvid bits) :
    ¬ Undoes table srvid bits args := by
  intro undoes
  obtain ⟨se, held, _⟩ := effect.changes
  have shorter := longest.longest _ (storedPrefix_initial srvid bits)
      (Finmap.mem_of_lookup_eq_some held)
  have longer : (storedPrefix srvid bits).length < s.length := by
    refine lt_of_le_of_ne shorter ?_
    intro equal
    have initial := List.prefix_of_prefix_length_le (storedPrefix_initial srvid bits)
        longest.begins shorter
    exact elsewhere (initial.eq_of_length equal).symm
  have none := undoes.longest s longest.begins longer
  rw [rep.entryAt_eq] at none
  rcases effect.domain longest.here with before | same
  · exact absurd before (Finmap.lookup_eq_none.mp none)
  · exact elsewhere same

private theorem TableRep.nothing_longer (rep : TableRep table L m) (kept : ∀ s, s ∈ m → s ∈ m')
    (longest : IsLongest (· ∈ m') (prefixOf srvid bits) key)
    (s : List Bool) (begins : s <+: prefixOf srvid bits)
    (longer : key.length < s.length) : entryAt table s = none := by
  rw [rep.entryAt_eq]
  apply Finmap.lookup_eq_none.mpr
  intro present
  have shorter := longest.longest s begins (kept s present)
  omega

private theorem TableRep.undoes_extended (rep : TableRep table L m)
    (held : m.lookup (storedPrefix srvid bits) = some se)
    (longest :
      IsLongest
        (· ∈ m.insert (storedPrefix srvid bits) (se.withTarget args.weighted))
        (prefixOf srvid bits) (storedPrefix srvid bits)) :
    Removable args.type ∧ se.targetSet ≠ [] ∧ UndoesAt args.weighted se ↔
      Undoes table srvid bits args := by
  have active := (rep.entryAt_eq _).trans held
  constructor
  · intro conditions
    obtain ⟨removable, nonempty, undoes⟩ := conditions
    exact {
      removable := removable
      longest := rep.nothing_longer
          (fun s present => Finmap.mem_insert.mpr (Or.inr present)) longest
      present := by
        intro other here
        cases active.symm.trans here
        exact ⟨nonempty, undoes⟩
      absent := by
        intro absent
        cases active.symm.trans absent }
  · intro undoes
    exact ⟨undoes.removable, undoes.present se active⟩

private theorem TableRep.undoes_created (rep : TableRep table L m)
    (absent : m.lookup (storedPrefix srvid bits) = none)
    (longest :
      IsLongest
        (· ∈ (survives table.tree m).insert (storedPrefix srvid bits) (freshEntry args.weighted p))
        (prefixOf srvid bits) (storedPrefix srvid bits)) :
    (Removable args.type ∧
        (table.tree.entries = 0 → (∀ s, m.lookup s = none) ∧ storedPrefix srvid bits ≠ [])) ↔
      Undoes table srvid bits args := by
  have idle := (rep.entryAt_eq _).trans absent
  constructor
  · intro conditions
    obtain ⟨removable, room⟩ := conditions
    exact {
      removable := removable
      longest := by
        refine rep.nothing_longer ?_ longest
        intro s present
        refine Finmap.mem_insert.mpr (Or.inr ?_)
        by_cases zero : table.tree.entries = 0
        · exact absurd present (Finmap.lookup_eq_none.mp ((room zero).1 s))
        · rwa [survives, if_neg zero]
      present := by
        intro se active
        cases idle.symm.trans active
      absent := by
        intro _ zero
        refine ⟨?_, (room zero).2⟩
        intro s
        rw [rep.entryAt_eq]
        exact (room zero).1 s }
  · intro undoes
    refine ⟨undoes.removable, ?_⟩
    intro zero
    obtain ⟨none, notRoot⟩ := undoes.absent idle zero
    refine ⟨?_, notRoot⟩
    intro s
    rw [← rep.entryAt_eq]
    exact none s

end Restored

/-- In every reachable table, deleting a rule that has just been added
restores the table exactly under the conditions: the rule type can be
removed; no entry for more of the bits is found instead (which the all-zero
id makes possible); an entry that was there had targets, and the removal
finds the new one first; and the trie did not start over with a new root that
is then alone or without the other entries. -/
theorem restored_iff_undoes {table : ServiceTable} (reachable : Reachable table)
    (srvid : ServiceId) {prefixBits : Nat} (short : prefixBits ≤ 256)
    {args : TargetArgs} (ok : TableAddOk args) {added : ServiceTable}
    (run : serviceAdd table (some srvid) prefixBits args Allocs.succeed = .ok (1, added)) :
    Restored table added srvid prefixBits args ↔ Undoes table srvid prefixBits args := by
  obtain ⟨L, m, rep⟩ := reachable.represents
  obtain ⟨ret, table', L', m', ran, rep', effect, fresh⟩ := rep.add srvid short ok.weighted
  have same := run.symm.trans ran
  cases same
  obtain ⟨s, _, _, _, longest⟩ := (rep'.tree.find (bits_le_sid srvid short)).resolve_left
      (effect.not_absent srvid prefixBits)
  by_cases atKey : s = storedPrefix srvid prefixBits
  · subst atKey
    cases effect with
    | refused ret other reason => exact absurd rfl other
    | extended se valid held free absent =>
      have addOk := ok.weighted.addOk valid
      refine (rep.restored_extended held addOk rep' short longest).trans ?_
      exact rep.undoes_extended held longest
    | created p valid absent =>
      have addOk := ok.weighted.addOk valid
      refine (rep.restored_created absent addOk rep' (fresh rfl absent) short longest).trans ?_
      exact rep.undoes_created absent longest
  · refine iff_of_false (rep.not_restored_elsewhere rep' effect short ok.dstOk longest atKey) ?_
    intro undoes
    exact rep.not_undoes_elsewhere effect longest atKey undoes

/-- A rule for nine bits, below a rule for three of them. -/
theorem restored_iff_undoes_sample : ∃ table added, runAll tableStep serviceTableInit
          [.add (some sampleId) 3 (forwardRule [10, 0, 0, 1] 1 1 "eth0")] = .ok table ∧
        serviceAdd table (some sampleId) 9 (forwardRule [10, 0, 0, 2] 1 1 "eth0")
          Allocs.succeed = .ok (1, added) ∧
        Restored table added sampleId 9 (forwardRule [10, 0, 0, 2] 1 1 "eth0") := by
  obtain ⟨table, run, test⟩ := exists_of_leaves (show leaves
      (runAll tableStep serviceTableInit
        [.add (some sampleId) 3 (forwardRule [10, 0, 0, 1] 1 1 "eth0")]) (fun table =>
        (entryAt table (prefixOf sampleId 9)).isNone && decide (table.tree.entries ≠ 0) &&
          leaves (serviceAdd table (some sampleId) 9 (forwardRule [10, 0, 0, 2] 1 1 "eth0")
            Allocs.succeed) fun added => added.1 == 1) = true by
    decide +kernel)
  simp only [Bool.and_eq_true, decide_eq_true_eq, Option.isNone_iff_eq_none] at test
  obtain ⟨⟨absent, filled⟩, adds⟩ := test
  obtain ⟨⟨ret, added⟩, run', one⟩ := exists_of_leaves adds
  obtain rfl : ret = 1 := eq_of_beq one
  refine ⟨table, added, run, run', (restored_iff_undoes ⟨_, sampleRule_admitted, run⟩ sampleId
    (by decide) (forwardRule_tableOk rfl ..) run').mpr ⟨Or.inl rfl, ?_, ?_, ?_⟩⟩
  · intro s begins longer
    exact absurd begins.length_le (Nat.not_le.mpr longer)
  · intro se present
    cases absent.symm.trans present
  · intro _ empty
    exact absurd empty filled

def dropRule : TargetArgs := { forwardRule [10, 0, 0, 1] 1 1 "eth0" with type := .drop }

/-- A rule that drops packets is still there after its deletion, and so is a
rule of the all-zero id when a rule for its first bit is found instead. -/
theorem dropRule_not_restored : (∃ added, serviceAdd serviceTableInit (some sampleId) 3 dropRule
            Allocs.succeed = .ok (1, added) ∧
          ¬ Restored serviceTableInit added sampleId 3 dropRule) ∧
      ∃ table added, runAll tableStep serviceTableInit
            [.add (some (wordId 0)) 1 (forwardRule [10, 0, 0, 1] 1 1 "eth0")] = .ok table ∧
          serviceAdd table (some defaultService) 1
              (forwardRule [10, 0, 0, 2] 1 1 "eth0") Allocs.succeed =
            .ok (1, added) ∧
          ¬ Restored table added defaultService 1
            (forwardRule [10, 0, 0, 2] 1 1 "eth0") := by
  refine ⟨⟨_, rfl, ?_⟩, _, _, rfl, rfl, ?_⟩
  · intro restored
    obtain ⟨stats, after, run, same⟩ := restored
    cases run
    have there := congrArg Option.isSome (same [true, false, true])
    cases there
  · intro restored
    obtain ⟨stats, after, run, same⟩ := restored
    cases run
    have there := congrArg Option.isSome (same [])
    cases there

end Serval
