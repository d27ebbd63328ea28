import Serval.Service.Table
import Serval.Service.EntrySweep
import Serval.Bst.Insert

/-!
# What the service table represents

The table represents a finite map from prefixes to entries.
-/

namespace Serval

open Serval.Support

structure TableRep (table : ServiceTable) (L : Layout) (m : BitMap ServiceEntry) : Prop where
  tree : Represents table.tree L m
  services : table.services = table.tree.entries
  node : ∀ s se, m.lookup s = some se → se.node = L.place s
  shape : ∀ s se, m.lookup s = some se → EntryShape se

theorem serviceTableInit_rep : TableRep serviceTableInit Layout.empty ∅ where
  tree := bstInit_represents
  services := rfl
  node := by
    intro s se held
    simp at held
  shape := by
    intro s se held
    simp at held

def prefixOf (srvid : ServiceId) (bits : Nat) : List Bool := takeBits srvid.sid bits

def storedPrefix (srvid : ServiceId) (prefixBits : Nat) : List Bool :=
  prefixOf srvid (storedBits srvid prefixBits)

theorem bits_le_sid (srvid : ServiceId) {bits : Nat} (short : bits ≤ 256) :
    bits ≤ 8 * srvid.sid.length := by
  rw [srvid.size]
  exact short

theorem storedBits_le (srvid : ServiceId) {bits : Nat} (short : bits ≤ 256) :
    storedBits srvid bits ≤ 256 := by
  unfold storedBits
  split
  · exact Nat.zero_le _
  · exact short

section Rep

variable {table : ServiceTable} {L : Layout} {m : BitMap ServiceEntry}

/-! ## Reading and writing an entry -/

variable {s : List Bool} {se : ServiceEntry} {dst : Option Buf} {p : Ptr} {dstlen : Nat}

theorem TableRep.placed (rep : TableRep table L m)
    (held : m.lookup s = some se) : ∃ p, L.place s = some p :=
  rep.tree.support s se held

theorem TableRep.getService (rep : TableRep table L m)
    (held : m.lookup s = some se) (placed : L.place s = some p) :
    getService table p = .ok se := by
  obtain ⟨node, live, ok⟩ := rep.tree.node s p placed
  simp [Serval.getService, Heap.read_of_live live, ok.priv, held]

theorem setService_represents (tree : Represents table.tree L m) {s : List Bool}
    {old : ServiceEntry} {p : Ptr} (held : m.lookup s = some old)
    (placed : L.place s = some p) (se : ServiceEntry) :
    ∃ table', setService table p se = .ok table' ∧ Represents table'.tree L (m.insert s se) ∧
      table'.services = table.services ∧ table'.tree.entries = table.tree.entries := by
  obtain ⟨holder, live, ok⟩ := tree.node s p placed
  refine ⟨{ table with
    tree := { table.tree with
      heap := table.tree.heap.set p
        (some { holder with priv := some se }) } },
    ?_, ?_, rfl, rfl⟩
  · simp only [Serval.setService, Heap.read_of_live live, Heap.write_of_live _ live, ok_bind,
      pure_eq_ok]
  · exact {
      toStored := by
        refine tree.set_node placed ?_ ?_
        · exact { ok with
            priv := (Finmap.lookup_insert m).symm
            idle := by simp }
        · intro t different
          exact Finmap.lookup_insert_of_ne m different
      root := tree.root
      entries := by
        rw [BitMap.card_keys_replace se held]
        exact tree.entries }

theorem TableRep.setService (rep : TableRep table L m) {old : ServiceEntry}
    (se : ServiceEntry) (held : m.lookup s = some old)
    (placed : L.place s = some p) (node : se.node = old.node)
    (shape : EntryShape se) :
    ∃ table', setService table p se = .ok table' ∧ TableRep table' L (m.insert s se) := by
  obtain ⟨table', run, tree, services, entries⟩ := setService_represents rep.tree held placed se
  refine ⟨table', run, ?_⟩
  exact {
    tree := tree
    services := by
      rw [services, entries, rep.services]
    node := by
      intro t other found
      rw [BitMap.lookup_insert_eq] at found
      by_cases same : t = s
      · rw [if_pos same] at found
        cases found
        rw [node, same, rep.node s old held]
      · rw [if_neg same] at found
        exact rep.node t other found
    shape := by
      intro t other found
      rw [BitMap.lookup_insert_eq] at found
      by_cases same : t = s
      · rw [if_pos same] at found
        cases found
        exact shape
      · rw [if_neg same] at found
        exact rep.shape t other found }

variable {bits : Nat}

theorem TableRep.findExact (rep : TableRep table L m) (srvid : ServiceId) (short : bits ≤ 256) :
    findExact table srvid bits = .ok (if (m.lookup (prefixOf srvid bits)).isSome then
        L.place (prefixOf srvid bits) else none) := by
  have absent_case (absent : prefixOf srvid bits ∉ m) :
      (m.lookup (prefixOf srvid bits)).isSome = false := by
    rw [Finmap.lookup_eq_none.mpr absent]
    rfl
  unfold Serval.findExact
  rcases rep.tree.find (bits_le_sid srvid short) with
    ⟨run, absent⟩ | ⟨s, p, run, placed, isLongest⟩
  · rw [run, absent_case (absent _ List.prefix_rfl)]
    rfl
  obtain ⟨node, live, ok⟩ := rep.tree.node s p placed
  obtain ⟨shorter, same⟩ := eq_takeBits_of_prefix isLongest.begins
  rw [run]
  simp only [Heap.read_of_live live, ok_bind, ok.depth]
  by_cases whole : s.length ≥ bits
  · have equal : s = prefixOf srvid bits := by
      rw [same, Nat.le_antisymm shorter whole]
      rfl
    have member : (m.lookup (prefixOf srvid bits)).isSome = true := by
      rw [← equal]
      exact Finmap.lookup_isSome.mpr isLongest.here
    rw [if_pos whole, member, ← equal, placed]
    rfl
  · have absent : prefixOf srvid bits ∉ m := by
      intro member
      have longer := isLongest.longest _ List.prefix_rfl member
      rw [takeBits_length] at longer
      omega
    rw [if_neg whole, absent_case absent]
    rfl

theorem TableRep.erased (rep : TableRep table L m) {table' : ServiceTable}
    {L' : Layout} (tree : Represents table'.tree L' (m.erase s))
    (services : table'.services = table'.tree.entries)
    (fromBefore : ∀ t q, t ≠ s → L'.place t = some q → L.place t = some q) :
    TableRep table' L' (m.erase s) where
  tree := tree
  services := services
  node := by
    intro t other found
    obtain ⟨q, here⟩ := tree.support t other found
    rw [BitMap.lookup_erase_eq] at found
    by_cases same : t = s
    · rw [if_pos same] at found
      cases found
    · rw [if_neg same] at found
      rw [rep.node t other found, here, fromBefore t q same here]
  shape := by
    intro t other found
    rw [BitMap.lookup_erase_eq] at found
    by_cases same : t = s
    · rw [if_pos same] at found
      cases found
    · rw [if_neg same] at found
      exact rep.shape t other found

theorem TableRep.del (rep : TableRep table L m) (srvid : ServiceId) (short : bits ≤ 256) :
    ∃ table', serviceDel table srvid bits = .ok table' ∧
      TableRep table' L (m.erase (prefixOf srvid bits)) := by
  obtain ⟨tree', run, tree⟩ := rep.tree.remove (bits_le_sid srvid short)
  refine ⟨_, by
    simp only [serviceDel, run, ok_bind, pure_eq_ok]; rfl, ?_⟩
  refine rep.erased tree ?_ fun t q _ here => here
  cases held : m.lookup (takeBits srvid.sid bits) with
  | none =>
    rw [tree.entries, BitMap.erase_of_absent held, rep.services, rep.tree.entries]
    rfl
  | some se =>
    rw [tree.entries, rep.services, rep.tree.entries, ← BitMap.card_keys_erase held]
    exact ofNat_succ_sub_one _

/-- Releasing the node of an entry takes the entry out of the map. -/
theorem TableRep.release (rep : TableRep table L m)
    (held : m.lookup s = some se) (placed : L.place s = some p)
    (notLonely : s ≠ [] ∨ ∃ b q, L.place [b] = some q) :
    ∃ table' L', releaseEntry table p = .ok table' ∧
      TableRep table' L' (m.erase s) ∧ Layout.Shrinks L L' s := by
  obtain ⟨tree, L', run, tree', shrinks⟩ := rep.tree.release placed notLonely
  refine ⟨_, L', by
    simp only [Serval.releaseEntry, run, ok_bind, pure_eq_ok]; rfl, ?_,
    shrinks⟩
  refine rep.erased tree' ?_ fun t q _ here =>
    shrinks.from_before t q here
  rw [rep.services, rep.tree.entries, tree'.entries, ← BitMap.card_keys_erase held,
    ofNat_succ_sub_one]

/-- What becomes of an entry when a target is removed: an entry without
targets goes. -/
def afterRemove (type : RuleType) (dst : Option Buf) (dstlen : Nat)
    (se : ServiceEntry) : Option ServiceEntry :=
  match se.removeTarget type dst dstlen with
  | .ok (stats, se') =>
    if stats.isSome && se'.targetSet.isEmpty then none else some se'
  | .error _ => some se

/-- What `del_dev_func` makes of an entry: one that loses its last targets
goes only if there was just one of them. -/
def afterDelDev (devname : String) (se : ServiceEntry) :
    Option ServiceEntry :=
  match se.removeTargetByDev devname with
  | .ok (ret, se') =>
    if ret = 1 && se'.targetSet.isEmpty then none else some se'
  | .error _ => some se

/-- A single set that counts one target, and a target that matches. -/
def LastMatch (type : RuleType) (dst : Option Buf) (dstlen : Nat) (se : ServiceEntry) : Prop :=
  ∃ set, se.targetSet = [set] ∧ set.count = 1 ∧
    ∃ t ∈ set.list, Matches type dst dstlen t

theorem unlessEmpty_eq_nil_iff (set : TargetSet) : unlessEmpty set = [] ↔ set.count = 0 := by
  unfold unlessEmpty
  split
  · exact iff_of_true rfl ‹_›
  · exact iff_of_false (List.cons_ne_nil _ _) ‹_›

/-- A removal leaves no entry when it takes the last target that is
counted. -/
theorem EntryShape.afterRemove_eq_none_iff (shape : EntryShape se)
    (type : RuleType) (ok : DstOk dst dstlen) :
    afterRemove type dst dstlen se = none ↔ LastMatch type dst dstlen se := by
  unfold afterRemove
  rcases shape.removeTarget type ok with
    ⟨absent, run⟩ | ⟨found, hit, matching, _, run⟩
  · rw [run]
    refine iff_of_false (by simp) ?_
    intro last
    obtain ⟨set, only, _, t, member, here⟩ := last
    exact absent ⟨set, by simp [only], t, member, here⟩
  rw [run]
  have decided : found.without = [] ↔
        found.sets.before = [] ∧ found.sets.item.count = 1 ∧ found.sets.after = [] := by
    have counts : (targetSetRemoveTarget found.sets.item found.targets).count = 0 ↔
          found.sets.item.count = 1 :=
      sub_eq_zero
    rw [Located.without, List.append_eq_nil_iff, List.append_eq_nil_iff, unlessEmpty_eq_nil_iff,
      counts, and_assoc]
  have whole := hit.sets
  unfold Split.whole at whole
  simp only [Option.isSome_some, Bool.true_and, List.isEmpty_iff, ite_eq_left_iff, reduceCtorEq,
    imp_false, not_not, decided]
  constructor
  · intro last
    obtain ⟨before, one, after⟩ := last
    rw [before, after] at whole
    exact ⟨found.sets.item, whole, one, found.targets.item, hit.target_mem, matching⟩
  · intro last
    obtain ⟨set, only, one, _⟩ := last
    rw [only] at whole
    rcases List.append_eq_singleton_iff.mp whole.symm with
      ⟨before, rest⟩ | ⟨_, impossible⟩
    · obtain ⟨item, after⟩ := List.cons_eq_cons.mp rest
      exact ⟨before, item ▸ one, after⟩
    · exact absurd impossible (List.cons_ne_nil _ _)

theorem EntryShape.afterRemove_of_absent (shape : EntryShape se)
    {type : RuleType} (ok : DstOk dst dstlen)
    (absent : ¬ se.Holds (Matches type dst dstlen)) :
    afterRemove type dst dstlen se = some se := by
  unfold afterRemove
  rcases shape.removeTarget type ok with
    ⟨_, run⟩ | ⟨_, _, _, present, _⟩
  · rw [run]
    rfl
  · exact absurd present absent

theorem assign_insert (m : BitMap ServiceEntry) (s : List Bool) (se : ServiceEntry)
    (value : Option ServiceEntry) :
    BitMap.assign (m.insert s se) s value = m.assign s value := by
  apply Finmap.ext_lookup
  intro t
  rw [BitMap.lookup_assign, BitMap.lookup_assign, BitMap.lookup_insert_eq]
  by_cases same : t = s
  · rw [if_pos same, if_pos same]
  · rw [if_neg same, if_neg same, if_neg same]

theorem TableRep.settle (rep : TableRep table L m) {old : ServiceEntry}
    (se : ServiceEntry) (empty : Bool) (held : m.lookup s = some old)
    (placed : L.place s = some p) (node : se.node = old.node)
    (shape : EntryShape se)
    (notLonely : empty = true → s ≠ [] ∨ ∃ b q, L.place [b] = some q) :
    ∃ table' L', settleEntry table p se empty = .ok table' ∧
      TableRep table' L' (m.assign s (if empty then none else some se)) ∧
      Layout.Shrinks L L' s := by
  obtain ⟨stored, run, rep'⟩ := rep.setService se held placed node shape
  unfold settleEntry
  rw [run]
  cases empty with
  | false => exact ⟨stored, L, rfl, rep', Layout.Shrinks.refl L s⟩
  | true =>
    obtain ⟨table', L', ran, rep'', shrinks⟩ :=
      rep'.release (Finmap.lookup_insert m) placed (notLonely rfl)
    refine ⟨table', L', ran, ?_, shrinks⟩
    rw [← assign_insert m s se]
    exact rep''

theorem TableRep.removeAndSettle (rep : TableRep table L m)
    (held : m.lookup s = some se) (placed : L.place s = some p)
    (type : RuleType) (ok : DstOk dst dstlen)
    (notLonely : afterRemove type dst dstlen se = none → s ≠ [] ∨ ∃ b q, L.place [b] = some q) :
    ∃ stats se' table' L', se.removeTarget type dst dstlen = .ok (stats, se') ∧ se'.node = se.node ∧
        (stats.isSome = true ↔ se.Holds (Matches type dst dstlen)) ∧
        settleEntry table p se' (stats.isSome && se'.targetSet.isEmpty) = .ok table' ∧
        TableRep table' L' (m.assign s (afterRemove type dst dstlen se)) ∧
        Layout.Shrinks L L' s := by
  have shape := rep.shape s se held
  have removal : ∃ stats se', se.removeTarget type dst dstlen = .ok (stats, se') ∧
        se'.node = se.node ∧ (stats.isSome = true ↔ se.Holds (Matches type dst dstlen)) ∧
        EntryShape se' := by
    rcases shape.removeTarget type ok with
      ⟨absent, run⟩ | ⟨found, hit, _, present, run⟩
    · exact ⟨none, se, run, rfl, by simp [absent], shape⟩
    · exact ⟨_, _, run, rfl, by simp [present], hit.without_shape shape _⟩
  obtain ⟨stats, se', run, node, found, shape'⟩ := removal
  have after : afterRemove type dst dstlen se =
        if stats.isSome && se'.targetSet.isEmpty then none
        else some se' := by
    simp only [afterRemove, run]
  obtain ⟨table', L', settled, rep', shrinks⟩ :=
    rep.settle se' (stats.isSome && se'.targetSet.isEmpty) held placed
      node shape' (by
        intro empty
        apply notLonely
        rw [after, if_pos empty])
  refine ⟨stats, se', table', L', run, node, found, settled, ?_, shrinks⟩
  rw [after]
  exact rep'

theorem TableRep.delTarget (rep : TableRep table L m) (srvid : ServiceId)
    (short : bits ≤ 256) (type : RuleType) (ok : DstOk dst dstlen) :
    ((∀ s, s <+: prefixOf srvid bits → s ∉ m) ∧
        serviceDelTarget table srvid bits type dst dstlen = .ok (none, table)) ∨
      ∃ s se, IsLongest (· ∈ m) (prefixOf srvid bits) s ∧ m.lookup s = some se ∧
        ((afterRemove type dst dstlen se = none → s ≠ [] ∨ ∃ b q, L.place [b] = some q) →
          ∃ stats table' L', serviceDelTarget table srvid bits type dst dstlen =
                .ok (stats, table') ∧ (stats.isSome = true ↔ se.Holds (Matches type dst dstlen)) ∧
              TableRep table' L'
                (m.assign s (afterRemove type dst dstlen se))) := by
  unfold serviceDelTarget
  rcases rep.tree.find (bits_le_sid srvid short) with
    ⟨run, absent⟩ | ⟨s, p, run, placed, isLongest⟩
  · left
    rw [run]
    exact ⟨absent, rfl⟩
  right
  obtain ⟨se, held⟩ := Finmap.mem_iff.mp isLongest.here
  refine ⟨s, se, isLongest, held, ?_⟩
  intro notLonely
  obtain ⟨stats, se', table', L', removed, _, found, settled, rep', _⟩ :=
    rep.removeAndSettle held placed type ok notLonely
  refine ⟨stats, table', L', ?_, found, rep'⟩
  simp only [run, ok_bind, rep.getService held placed, removed, settled, pure_eq_ok]

theorem TableRep.entryRemoveTarget (rep : TableRep table L m)
    (held : m.lookup s = some se) (placed : L.place s = some p)
    (type : RuleType) (ok : DstOk dst dstlen)
    (notLonely : afterRemove type dst dstlen se = none → s ≠ [] ∨ ∃ b q, L.place [b] = some q) :
    ∃ stats table' L', serviceEntryRemoveTarget table p type dst dstlen = .ok (stats, table') ∧
        TableRep table' L'
          (m.assign s (afterRemove type dst dstlen se)) := by
  obtain ⟨stats, se', table', L', removed, node, _, settled, rep', _⟩ :=
    rep.removeAndSettle held placed type ok notLonely
  have here : se'.node = some p := by rw [node, rep.node s se held, placed]
  refine ⟨stats, table', L', ?_, rep'⟩
  obtain ⟨stored, set, released⟩ := of_bind settled
  unfold serviceEntryRemoveTarget
  simp only [rep.getService held placed, ok_bind, removed, set, here]
  cases empty : stats.isSome && se'.targetSet.isEmpty with
  | false =>
    rw [empty] at released
    cases released
    rfl
  | true =>
    rw [empty] at released
    simp only [if_true] at released ⊢
    rw [released]
    rfl

theorem TableRep.visits_delTarget (type : RuleType) (ok : DstOk dst dstlen) :
    Visits TableRep (delTargetFunc type dst dstlen)
      (afterRemove type dst dstlen) fun _ => True := by
  intro table L m t p se rep placed held _ notLonely
  obtain ⟨stats, se', table', L', removed, _, _, settled, rep', shrinks⟩ :=
    rep.removeAndSettle held placed type ok notLonely
  refine ⟨if stats.isSome then 1 else 0, table', L', ?_, ?_, rep', shrinks⟩
  · simp only [delTargetFunc, rep.getService held placed, ok_bind, removed, settled, pure_eq_ok]
  · split
    · decide
    · decide

def SmallSets (se : ServiceEntry) : Prop := ∀ set ∈ se.targetSet, set.list.length ≤ 2 ^ 16

def LastOnDevice (devname : String) (se : ServiceEntry) : Prop :=
  ∃ set t, se.targetSet = [set] ∧ set.list = [t] ∧ OnDevice devname t

theorem EntryShape.single (shape : EntryShape se) (one : (contents se.targetSet).card = 1) :
    ∃ set t, se.targetSet = [set] ∧ set.list = [t] := by
  cases sets : se.targetSet with
  | nil =>
    rw [sets] at one
    cases one
  | cons set rest =>
    have nonempty := (shape.setOk set (by simp [sets])).nonempty
    have some := List.length_pos_iff.mpr nonempty
    rw [sets, contents_cons, Multiset.card_add, Multiset.coe_card, List.length_map] at one
    have single : set.list.length = 1 := by omega
    obtain ⟨t, list⟩ := List.length_eq_one_iff.mp single
    cases rest with
    | nil => exact ⟨set, t, rfl, list⟩
    | cons other others =>
      have otherNonempty := (shape.setOk other (by simp [sets])).nonempty
      have someOther := List.length_pos_iff.mpr otherNonempty
      rw [contents_cons, Multiset.card_add, Multiset.coe_card, List.length_map] at one
      omega

/-- A removal by device leaves no entry when it takes a single target. -/
theorem EntryShape.afterDelDev_eq_none (shape : EntryShape se)
    {devname : String} (small : SmallSets se)
    (goes : afterDelDev devname se = none) : LastOnDevice devname se := by
  obtain ⟨removed, sets, run, _, left, counted⟩ := shape.removeTargetByDev devname small
  unfold afterDelDev at goes
  rw [run] at goes
  simp only [ite_eq_left_iff, reduceCtorEq, imp_false, not_not, Bool.and_eq_true, decide_eq_true_eq,
    List.isEmpty_iff] at goes
  obtain ⟨one, empty⟩ := goes
  rw [empty, contents_nil] at left counted
  have alone : (contents se.targetSet).card = 1 := by
    rw [← counted, Multiset.card_zero]
    omega
  obtain ⟨set, t, only, list⟩ := shape.single alone
  refine ⟨set, t, only, list, ?_⟩
  by_contra elsewhere
  have kept : (set.priority, t) ∈ (contents se.targetSet).filter
        (fun entry => ¬ OnDevice devname entry.2) := by
    refine Multiset.mem_filter.mpr ⟨mem_contents.mpr ?_, elsewhere⟩
    exact ⟨set, by simp [only], rfl, by simp [list]⟩
  rw [← left] at kept
  exact absurd kept (Multiset.notMem_zero _)

theorem TableRep.visits_delDev (devname : String) :
    Visits TableRep (delDevFunc devname) (afterDelDev devname)
      SmallSets := by
  intro table L m t p se rep placed held small notLonely
  obtain ⟨removed, sets, run, shape, _, _⟩ := (rep.shape t se held).removeTargetByDev devname small
  have after : afterDelDev devname se =
        if removed = 1 && sets.isEmpty then none
        else some { se with
          targetSet := sets
          count := se.count - UInt32.ofNat removed } := by
    simp only [afterDelDev, run]
  obtain ⟨table', L', settled, rep', shrinks⟩ := rep.settle
      { se with
        targetSet := sets, count := se.count - UInt32.ofNat removed }
      (removed = 1 && sets.isEmpty) held placed rfl (shape _) (by
        intro empty
        apply notLonely
        rw [after, if_pos empty])
  refine ⟨removed, table', L', ?_, Int.natCast_nonneg removed, ?_, shrinks⟩
  · simp only [delDevFunc, rep.getService held placed, ok_bind, run, settled, pure_eq_ok]
  · rw [after]
    exact rep'

theorem TableRep.forAllEntries (rep : TableRep table L m)
    {func : Ptr → ServiceTable → Except Fault (Int × ServiceTable)}
    {visit : ServiceEntry → Option ServiceEntry}
    {good : ServiceEntry → Prop}
    (visits : Visits TableRep func visit good)
    (allGood : ∀ s se, m.lookup s = some se → good se)
    (notLonely :
      ∀ se, m.lookup [] = some se → visit se = none →
        ∃ b q, L.place [b] = some q) :
    ∃ ret table' L' m', forAllEntries table func = .ok (ret, table') ∧ TableRep table' L' m' ∧
        ∀ s, m'.lookup s = (m.lookup s).bind visit := by
  unfold Serval.forAllEntries
  rw [rep.tree.root]
  cases rooted : L.place [] with
  | none =>
    refine ⟨0, table, L, m, rfl, rep, ?_⟩
    intro s
    have absent : m.lookup s = none := by
      cases held : m.lookup s with
      | none => rfl
      | some se =>
        obtain ⟨p, placed⟩ := rep.placed held
        obtain ⟨q, above⟩ := Layout.place_of_prefix List.nil_prefix placed
        rw [rooted] at above
        cases above
    rw [absent]
    rfl
  | some root =>
    exact visits.bstSubtreeFunc (fun _ _ _ rep => rep.tree) rep rooted allGood notLonely

theorem TableRep.modify (rep : TableRep table L m) (srvid : ServiceId)
    (short : bits ≤ 256) {args : ModifyArgs} (ok : ModifyOk args) :
    (m.lookup (storedPrefix srvid bits) = none ∧
        serviceTableModify table (some srvid) bits args Allocs.succeed = .ok (-EINVAL, table)) ∨
      ∃ se ret se' table', m.lookup (storedPrefix srvid bits) = some se ∧
          se.modifyTarget args Allocs.succeed = .ok (ret, se') ∧
          serviceTableModify table (some srvid) bits args Allocs.succeed = .ok (ret, table') ∧
          TableRep table' L (m.insert (storedPrefix srvid bits) se') := by
  have found := rep.findExact srvid (storedBits_le srvid short)
  unfold serviceTableModify
  simp only [found, ok_bind]
  cases held : m.lookup (prefixOf srvid (storedBits srvid bits)) with
  | none => exact Or.inl ⟨held, rfl⟩
  | some se =>
    right
    obtain ⟨p, placed⟩ := rep.placed held
    have shape := rep.shape _ se held
    have modification : ∃ ret se', se.modifyTarget args Allocs.succeed = .ok (ret, se') ∧
            se'.node = se.node ∧ EntryShape se' := by
      rcases shape.modifyTarget ok with
        ⟨ret, _, run⟩ | ⟨found, hit, _, _, _, run⟩
      · exact ⟨ret, se, run, rfl, shape⟩
      · exact ⟨1, _, run, rfl, hit.modify_shape shape ok⟩
    obtain ⟨ret, se', run, node, shape'⟩ := modification
    obtain ⟨table', set, rep'⟩ := rep.setService se' held placed node shape'
    refine ⟨se, ret, se', table', held, run, ?_, rep'⟩
    simp only [Option.isSome_some, if_true, placed, rep.getService held placed, ok_bind, run, set,
      pure_eq_ok]

end Rep

end Serval
