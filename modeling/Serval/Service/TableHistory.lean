import Serval.Bst.History
import Serval.Service.TableAdd

/-!
# Histories of the service table

The calls of the service table, what their callers promise, and what each
call does to the map of entries that the table represents.
-/

namespace Serval

open Serval.Support

/-- One call. `entryRemoveTarget` is given the entry that the bit string
leads to. -/
inductive TableOp where
  | add (srvid : Option ServiceId) (prefixBits : Nat) (args : TargetArgs)
  | modify (srvid : Option ServiceId) (prefixBits : Nat) (args : ModifyArgs)
  | del (srvid : ServiceId) (prefixBits : Nat)
  | delTarget (srvid : ServiceId) (prefixBits : Nat) (type : RuleType)
      (dst : Option Buf) (dstlen : Nat)
  | entryRemoveTarget (s : List Bool) (type : RuleType) (dst : Option Buf) (dstlen : Nat)
  | delTargetAll (type : RuleType) (dst : Option Buf) (dstlen : Nat)
  | delDevAll (devname : String)

section

variable (table : ServiceTable)

def tableStep : TableOp → Except Fault ServiceTable
  | .add srvid prefixBits args => do
    let (_, table) ← serviceAdd table srvid prefixBits args Allocs.succeed
    return table
  | .modify srvid prefixBits args => do
    let (_, table) ← serviceModify table srvid prefixBits args Allocs.succeed
    return table
  | .del srvid prefixBits => serviceDel table srvid prefixBits
  | .delTarget srvid prefixBits type dst dstlen => do
    let (_, table) ← serviceDelTarget table srvid prefixBits type dst dstlen
    return table
  | .entryRemoveTarget s type dst dstlen =>
    match table.tree.nodeAt s with
    | none => .error .null
    | some n => do
      let (_, table) ← serviceEntryRemoveTarget table n type dst dstlen
      return table
  | .delTargetAll type dst dstlen => do
    let (_, table) ← serviceDelTargetAll table type dst dstlen
    return table
  | .delDevAll devname => do
    let (_, table) ← serviceDelDevAll table devname
    return table

def entryAt (s : List Bool) : Option ServiceEntry :=
  match table.tree.nodeAt s with
  | none => none
  | some n =>
    match table.tree.heap.get? n with
    | none => none
    | some node => node.priv

/-- What a caller promises: prefixes fit into an id, destinations can be
read, and the entry given to `service_entry_remove_target` exists. -/
def TableCallable : TableOp → Prop
  | .add _ prefixBits args => prefixBits ≤ 256 ∧ TableAddOk args
  | .modify _ prefixBits args => prefixBits ≤ 256 ∧ ModifyOk args
  | .del _ prefixBits => prefixBits ≤ 256
  | .delTarget _ prefixBits _ dst dstlen =>
    prefixBits ≤ 256 ∧ DstOk dst dstlen
  | .entryRemoveTarget s _ dst dstlen =>
    (entryAt table s).isSome = true ∧ DstOk dst dstlen
  | .delTargetAll _ dst dstlen => DstOk dst dstlen
  | .delDevAll _ => True

def lonelyRoot : Bool :=
  match table.tree.root with
  | none => false
  | some root =>
    match table.tree.heap.get? root with
    | none => false
    | some node => node.left.isNone && node.right.isNone

def TableOp.Empties : TableOp → ServiceEntry → Prop
  | .delTarget _ _ type dst dstlen => LastMatch type dst dstlen
  | .entryRemoveTarget _ type dst dstlen => LastMatch type dst dstlen
  | .delTargetAll type dst dstlen => LastMatch type dst dstlen
  | .delDevAll devname => LastOnDevice devname
  | _ => fun _ => False

def KeepsRoot (op : TableOp) : Prop :=
  lonelyRoot table = true →
    ∀ se, entryAt table [] = some se → ¬ op.Empties se

/-- When targets are removed by device, no set has more of them than its
counter can tell. -/
def CountsSets : TableOp → Prop
  | .delDevAll _ => ∀ s se, entryAt table s = some se → SmallSets se
  | _ => True

/-- The call keeps its promises, and the code does not reach for freed
memory. -/
structure TableAllowed (op : TableOp) : Prop where
  callable : TableCallable table op
  keepsRoot : KeepsRoot table op
  countsSets : CountsSets table op

def TableOp.inserts : TableOp → Option (ServiceId × Nat)
  | .add (some srvid) prefixBits _ =>
    some (srvid, storedBits srvid prefixBits)
  | _ => none

def HasTableRoom (op : TableOp) : Prop :=
  op.inserts.isSome = true → table.tree.entries.toNat + 1 < 2 ^ 32

/-- What a history of calls can lead to. -/
def Reachable : Prop :=
  ∃ history, Admits tableStep TableAllowed serviceTableInit history ∧
    runAll tableStep serviceTableInit history = .ok table

end

/-- The arguments with which `service_add` calls `service_table_add`. -/
def TargetArgs.weighted (args : TargetArgs) : TargetArgs :=
  { args with weight := weightOrOne args.weight }

/-- The arguments with which `service_modify` calls
`service_table_modify`. -/
def ModifyArgs.weighted (args : ModifyArgs) : ModifyArgs :=
  { args with weight := weightOrOne args.weight }

inductive TableEffect (tree : Bst ServiceEntry) (m : BitMap ServiceEntry) :
    TableOp → BitMap ServiceEntry → Prop
  | addNull (prefixBits : Nat) (args : TargetArgs) :
      TableEffect tree m (.add none prefixBits args) m
  | add (srvid : ServiceId) (prefixBits : Nat) (args : TargetArgs)
      (ret : Int) (m' : BitMap ServiceEntry)
      (effect :
        AddEffect m tree (storedPrefix srvid prefixBits) args.weighted
          ret m') :
      TableEffect tree m (.add (some srvid) prefixBits args) m'
  | modifyNull (prefixBits : Nat) (args : ModifyArgs) :
      TableEffect tree m (.modify none prefixBits args) m
  | modifyAbsent (srvid : ServiceId) (prefixBits : Nat) (args : ModifyArgs)
      (absent : m.lookup (storedPrefix srvid prefixBits) = none) :
      TableEffect tree m (.modify (some srvid) prefixBits args) m
  | modify (srvid : ServiceId) (prefixBits : Nat) (args : ModifyArgs)
      (se : ServiceEntry) (ret : Int) (se' : ServiceEntry)
      (held : m.lookup (storedPrefix srvid prefixBits) = some se)
      (changed : se.modifyTarget args.weighted Allocs.succeed = .ok (ret, se')) :
      TableEffect tree m (.modify (some srvid) prefixBits args)
        (m.insert (storedPrefix srvid prefixBits) se')
  | del (srvid : ServiceId) (prefixBits : Nat) : TableEffect tree m (.del srvid prefixBits)
        (m.erase (prefixOf srvid prefixBits))
  | delTargetAbsent (srvid : ServiceId) (prefixBits : Nat)
      (type : RuleType) (dst : Option Buf) (dstlen : Nat)
      (absent : ∀ s, s <+: prefixOf srvid prefixBits → s ∉ m) :
      TableEffect tree m (.delTarget srvid prefixBits type dst dstlen) m
  | delTarget (srvid : ServiceId) (prefixBits : Nat) (type : RuleType)
      (dst : Option Buf) (dstlen : Nat) (s : List Bool)
      (se : ServiceEntry)
      (longest : IsLongest (· ∈ m) (prefixOf srvid prefixBits) s)
      (held : m.lookup s = some se) :
      TableEffect tree m (.delTarget srvid prefixBits type dst dstlen)
        (m.assign s (afterRemove type dst dstlen se))
  | entryRemoveTarget (s : List Bool) (type : RuleType)
      (dst : Option Buf) (dstlen : Nat) (se : ServiceEntry)
      (held : m.lookup s = some se) :
      TableEffect tree m (.entryRemoveTarget s type dst dstlen)
        (m.assign s (afterRemove type dst dstlen se))
  | delTargetAll (type : RuleType) (dst : Option Buf) (dstlen : Nat) (m' : BitMap ServiceEntry)
      (each : ∀ s, m'.lookup s = (m.lookup s).bind (afterRemove type dst dstlen)) :
      TableEffect tree m (.delTargetAll type dst dstlen) m'
  | delDevAll (devname : String) (m' : BitMap ServiceEntry)
      (each : ∀ s, m'.lookup s = (m.lookup s).bind (afterDelDev devname)) :
      TableEffect tree m (.delDevAll devname) m'

section Step

variable {table : ServiceTable} {L : Layout} {m : BitMap ServiceEntry}

theorem TableRep.entryAt_eq (rep : TableRep table L m) (s : List Bool) :
    entryAt table s = m.lookup s := by
  unfold entryAt
  rw [rep.tree.nodeAt_eq]
  cases placed : L.place s with
  | none =>
    cases held : m.lookup s with
    | none => rfl
    | some se =>
      obtain ⟨p, here⟩ := rep.placed held
      rw [placed] at here
      cases here
  | some p =>
    obtain ⟨node, live, ok⟩ := rep.tree.node s p placed
    simp only [live]
    exact ok.priv

variable {se : ServiceEntry} {root : Ptr}

theorem TableRep.notLonely (rep : TableRep table L m)
    (held : m.lookup [] = some se) (company : lonelyRoot table = false) :
    ∃ b q, L.place [b] = some q := by
  obtain ⟨root, rooted⟩ := rep.placed held
  obtain ⟨node, live, ok⟩ := rep.tree.node [] root rooted
  unfold lonelyRoot at company
  rw [rep.tree.root, rooted] at company
  simp only [live, Bool.and_eq_false_iff, Option.isNone_eq_false_iff,
    Option.isSome_iff_exists] at company
  rcases company with ⟨q, left⟩ | ⟨q, right⟩
  · exact ⟨false, q, ok.left.symm.trans left⟩
  · exact ⟨true, q, ok.right.symm.trans right⟩

theorem TableRep.alone (rep : TableRep table L m)
    (rooted : L.place [] = some root) (lonely : lonelyRoot table = true)
    (b : Bool) : L.place [b] = none := by
  obtain ⟨node, live, ok⟩ := rep.tree.node [] root rooted
  unfold lonelyRoot at lonely
  rw [rep.tree.root, rooted] at lonely
  simp only [live, Bool.and_eq_true, Option.isNone_iff_eq_none] at lonely
  cases b with
  | false => exact ok.left.symm.trans lonely.1
  | true => exact ok.right.symm.trans lonely.2

variable {type : RuleType} {dst : Option Buf} {dstlen : Nat}

/-- Taking the last target of a root without children: the entry is stored,
and the root is looked at after it has been freed. -/
theorem TableRep.remove_lonely (rep : TableRep table L m)
    (ok : DstOk dst dstlen) (held : m.lookup [] = some se)
    (rooted : L.place [] = some root) (alone : ∀ b, L.place [b] = none)
    (last : LastMatch type dst dstlen se) :
    ∃ stats se' stored, se.removeTarget type dst dstlen = .ok (some stats, se') ∧
        se'.targetSet.isEmpty = true ∧ se'.node = some root ∧
        Serval.setService table root se' = .ok stored ∧
        releaseEntry stored root = .error .freed := by
  have shape := rep.shape [] se held
  have goes := (shape.afterRemove_eq_none_iff type ok).mpr last
  unfold afterRemove at goes
  rcases shape.removeTarget type ok with
    ⟨_, run⟩ | ⟨target, hit, _, _, run⟩
  · rw [run] at goes
    cases goes
  rw [run] at goes
  have empty : target.without.isEmpty = true := by simpa using goes
  obtain ⟨stored, set, rep'⟩ := rep.setService
      { se with targetSet := target.without, count := se.count - 1 }
      held rooted rfl (hit.without_shape shape _)
  have freed := rep'.tree.release_lonely rooted alone
  refine ⟨_, _, stored, run, empty, ?_, set, ?_⟩
  · exact (rep.node [] se held).trans rooted
  · rw [releaseEntry, freed, error_bind]

variable {bits : Nat}

theorem TableRep.delTarget_lonely (rep : TableRep table L m)
    (srvid : ServiceId) (short : bits ≤ 256) (ok : DstOk dst dstlen)
    (held : m.lookup [] = some se) (lonely : lonelyRoot table = true)
    (last : LastMatch type dst dstlen se) :
    serviceDelTarget table srvid bits type dst dstlen = .error .freed := by
  obtain ⟨root, rooted⟩ := rep.placed held
  have alone := rep.alone rooted lonely
  have found : bstFindLongestPrefix table.tree srvid.sid bits = .ok (some root) := by
    rcases rep.tree.find (bits_le_sid srvid short) with
      ⟨_, absent⟩ | ⟨s, p, run, placed, _⟩
    · exact absurd (Finmap.mem_of_lookup_eq_some held) (absent [] List.nil_prefix)
    cases s with
    | nil =>
      rw [rooted] at placed
      cases placed
      exact run
    | cons b rest =>
      obtain ⟨q, below⟩ := Layout.place_of_prefix (List.prefix_append [b] rest) placed
      rw [alone b] at below
      cases below
  obtain ⟨stats, se', stored, run, empty, -, set, freed⟩ :=
    rep.remove_lonely ok held rooted alone last
  simp only [serviceDelTarget, found, ok_bind, rep.getService held rooted, run, settleEntry, set,
    Option.isSome_some, Bool.true_and, empty, if_true,
    freed, error_bind]

theorem TableRep.company (rep : TableRep table L m) {op : TableOp} (keeps : KeepsRoot table op)
    {s : List Bool} {se : ServiceEntry} (held : m.lookup s = some se)
    (goes : op.Empties se) :
    s ≠ [] ∨ ∃ b q, L.place [b] = some q := by
  by_cases atRoot : s = []
  · right
    subst atRoot
    cases lonely : lonelyRoot table with
    | false => exact rep.notLonely held lonely
    | true =>
      exact absurd goes (keeps lonely se ((rep.entryAt_eq []).trans held))
  · exact Or.inl atRoot

theorem TableAddOk.weighted
    {args : TargetArgs} (ok : TableAddOk args) : TableAddOk args.weighted where
  dst := ok.dst
  nat := ok.nat

theorem ModifyOk.weighted {args : ModifyArgs} (ok : ModifyOk args) : ModifyOk args.weighted where
  dst := ok.dst
  newDst := ok.newDst

theorem TableRep.serviceAdd (rep : TableRep table L m)
    (srvid : Option ServiceId) (short : bits ≤ 256) {args : TargetArgs}
    (ok : TableAddOk args) :
    ∃ table' L' m', tableStep table (.add srvid bits args) = .ok table' ∧ TableRep table' L' m' ∧
      TableEffect table.tree m (.add srvid bits args) m' := by
  cases srvid with
  | none => exact ⟨table, L, m, rfl, rep, .addNull bits args⟩
  | some srvid =>
    obtain ⟨ret, table', L', m', run, rep', effect, _⟩ := rep.add srvid short ok.weighted
    refine ⟨table', L', m', ?_, rep', .add srvid bits args ret m' effect⟩
    unfold TargetArgs.weighted at run
    simp only [tableStep, Serval.serviceAdd, run, ok_bind, pure_eq_ok]

theorem TableRep.serviceModify (rep : TableRep table L m)
    (srvid : Option ServiceId) (short : bits ≤ 256) {args : ModifyArgs}
    (ok : ModifyOk args) :
    ∃ table' m', tableStep table (.modify srvid bits args) = .ok table' ∧ TableRep table' L m' ∧
      TableEffect table.tree m (.modify srvid bits args) m' := by
  cases srvid with
  | none => exact ⟨table, m, rfl, rep, .modifyNull bits args⟩
  | some srvid =>
    rcases rep.modify srvid short ok.weighted with
      ⟨absent, run⟩ | ⟨se, ret, se', table', held, changed, run, rep'⟩
    · refine ⟨table, m, ?_, rep, .modifyAbsent srvid bits args absent⟩
      unfold ModifyArgs.weighted at run
      simp only [tableStep, Serval.serviceModify, run, ok_bind, pure_eq_ok]
    · refine ⟨table', _, ?_, rep', .modify srvid bits args se ret se' held changed⟩
      unfold ModifyArgs.weighted at run
      simp only [tableStep, Serval.serviceModify, run, ok_bind, pure_eq_ok]

/-- One allowed call runs without a fault, and what it does to the map is one
of the effects. -/
theorem TableRep.step (rep : TableRep table L m) (op : TableOp) (allowed : TableAllowed table op) :
    ∃ table' L' m', tableStep table op = .ok table' ∧
      TableRep table' L' m' ∧ TableEffect table.tree m op m' := by
  obtain ⟨callable, keepsRoot, countsSets⟩ := allowed
  cases op with
  | add srvid bits args => exact rep.serviceAdd srvid callable.1 callable.2
  | modify srvid bits args =>
    obtain ⟨table', m', run, rep', effect⟩ := rep.serviceModify srvid callable.1 callable.2
    exact ⟨table', L, m', run, rep', effect⟩
  | del srvid bits =>
    obtain ⟨table', run, rep'⟩ := rep.del srvid callable
    exact ⟨table', L, _, run, rep', .del srvid bits⟩
  | delTarget srvid bits type dst dstlen =>
    rcases rep.delTarget srvid callable.1 type callable.2 with
      ⟨absent, run⟩ | ⟨s, se, longest, held, removes⟩
    · refine ⟨table, L, m, ?_, rep, .delTargetAbsent srvid bits type dst dstlen absent⟩
      simp only [tableStep, run, ok_bind, pure_eq_ok]
    · obtain ⟨stats, table', L', run, _, rep'⟩ := removes fun goes => rep.company keepsRoot held
          (((rep.shape s se held).afterRemove_eq_none_iff type callable.2).mp goes)
      refine ⟨table', L', _, ?_, rep', .delTarget srvid bits type dst dstlen s se longest held⟩
      simp only [tableStep, run, ok_bind, pure_eq_ok]
  | entryRemoveTarget s type dst dstlen =>
    obtain ⟨active, ok⟩ := callable
    rw [rep.entryAt_eq] at active
    obtain ⟨se, held⟩ := Option.isSome_iff_exists.mp active
    obtain ⟨p, placed⟩ := rep.placed held
    obtain ⟨stats, table', L', run, rep'⟩ := rep.entryRemoveTarget held placed type ok
        fun goes => rep.company keepsRoot held
          (((rep.shape s se held).afterRemove_eq_none_iff type ok).mp goes)
    refine ⟨table', L', _, ?_, rep', .entryRemoveTarget s type dst dstlen se held⟩
    simp only [tableStep, rep.tree.nodeAt_eq, placed, run, ok_bind, pure_eq_ok]
  | delTargetAll type dst dstlen =>
    obtain ⟨ret, table', L', m', run, rep', each⟩ :=
      rep.forAllEntries (TableRep.visits_delTarget type callable)
        (fun _ _ _ => trivial)
        (fun se held goes =>
          (rep.company keepsRoot held (((rep.shape [] se held).afterRemove_eq_none_iff type
              callable).mp goes)).resolve_left fun other => other rfl)
    refine ⟨table', L', m', ?_, rep', .delTargetAll type dst dstlen m' each⟩
    simp only [tableStep, serviceDelTargetAll, run, ok_bind, pure_eq_ok]
  | delDevAll devname =>
    obtain ⟨ret, table', L', m', run, rep', each⟩ :=
      rep.forAllEntries (TableRep.visits_delDev devname)
        (fun s se held =>
          countsSets s se ((rep.entryAt_eq s).trans held))
        (fun se held goes =>
          (rep.company keepsRoot held ((rep.shape [] se held).afterDelDev_eq_none
              (countsSets [] se ((rep.entryAt_eq []).trans held))
              goes)).resolve_left fun other => other rfl)
    refine ⟨table', L', m', ?_, rep', .delDevAll devname m' each⟩
    simp only [tableStep, serviceDelDevAll, run, ok_bind, pure_eq_ok]

end Step

section Keys

variable {table : ServiceTable} {L : Layout} {m m' : BitMap ServiceEntry}
  {tree : Bst ServiceEntry} {op : TableOp}

theorem AddEffect.domain {key : List Bool} {args : TargetArgs} {ret : Int}
    (effect : AddEffect m tree key args ret m') {s : List Bool}
    (present : s ∈ m') : s ∈ m ∨ s = key := by
  cases effect with
  | refused ret other reason => exact Or.inl present
  | extended se valid held free absent =>
    rcases Finmap.mem_insert.mp present with same | before
    · exact Or.inr same
    · exact Or.inl before
  | created p valid absent =>
    rcases Finmap.mem_insert.mp present with same | before
    · exact Or.inr same
    · left
      obtain ⟨se, held⟩ := Finmap.mem_iff.mp before
      exact Finmap.mem_of_lookup_eq_some (mem_of_survives held)

theorem TableEffect.domain (effect : TableEffect tree m op m') {s : List Bool} (present : s ∈ m') :
    s ∈ m ∨ ∃ srvid bits, op.inserts = some (srvid, bits) ∧ s = prefixOf srvid bits := by
  cases effect with
  | addNull prefixBits args => exact Or.inl present
  | add srvid prefixBits args ret m' effect =>
    rcases effect.domain present with before | same
    · exact Or.inl before
    · exact Or.inr ⟨srvid, _, rfl, same⟩
  | modifyNull prefixBits args | modifyAbsent srvid prefixBits args absent => exact Or.inl present
  | modify srvid prefixBits args se ret se' held changed =>
    exact Or.inl (@BitMap.mem_of_mem_assign _ _ _ _ _ (some se') held present)
  | del srvid prefixBits => exact Or.inl (Finmap.mem_erase.mp present).2
  | delTargetAbsent srvid prefixBits type dst dstlen absent =>
    exact Or.inl present
  | delTarget srvid prefixBits type dst dstlen t se longest held
  | entryRemoveTarget t type dst dstlen se held =>
    exact Or.inl (BitMap.mem_of_mem_assign held present)
  | delTargetAll type dst dstlen m' each | delDevAll devname m' each =>
    exact Or.inl (BitMap.mem_of_lookup_bind each present)

theorem TableEffect.card_lt (effect : TableEffect tree m op m') (rep : TableRep table L m)
    (few : m.keys.card < 2 ^ 32) (room : HasTableRoom table op) :
    m'.keys.card < 2 ^ 32 := by
  cases inserts : op.inserts with
  | none =>
    have fewer : m'.keys ⊆ m.keys := by
      intro s present
      rcases effect.domain present with before | ⟨_, _, insert, _⟩
      · exact before
      · rw [inserts] at insert
        cases insert
    exact (Finset.card_le_card fewer).trans_lt few
  | some birth =>
    have fewer : m'.keys ⊆ insert (prefixOf birth.1 birth.2) m.keys := by
      intro s present
      rw [Finset.mem_insert]
      rcases effect.domain present with before | ⟨_, _, insert, same⟩
      · exact Or.inr before
      · rw [inserts] at insert
        cases insert
        exact Or.inl same
    have counted := room (by rw [inserts]; rfl)
    rw [rep.tree.entries, UInt32.toNat_ofNat_of_lt' few] at counted
    have bounded := (Finset.card_le_card fewer).trans (Finset.card_insert_le _ _)
    omega

end Keys

/-! ## Properties of every entry -/

def EachEntry (holds : ServiceEntry → Prop) (m : BitMap ServiceEntry) : Prop :=
  ∀ s se, m.lookup s = some se → holds se

section Each

variable {m m' : BitMap ServiceEntry} {holds : ServiceEntry → Prop}

theorem EachEntry.empty : EachEntry holds ∅ := by
  intro s se held
  cases held

theorem EachEntry.assign (each : EachEntry holds m) {s : List Bool} (value : Option ServiceEntry)
    (here : ∀ se, value = some se → holds se) :
    EachEntry holds (m.assign s value) := by
  intro t se held
  rw [BitMap.lookup_assign] at held
  by_cases same : t = s
  · rw [if_pos same] at held
    exact here se held
  · rw [if_neg same] at held
    exact each t se held

theorem EachEntry.insert (each : EachEntry holds m) {s : List Bool} {se : ServiceEntry}
    (here : holds se) : EachEntry holds (m.insert s se) := by
  apply each.assign (some se)
  intro other same
  cases same
  exact here

theorem EachEntry.bind (each : EachEntry holds m) {visit : ServiceEntry → Option ServiceEntry}
    (visited : ∀ s, m'.lookup s = (m.lookup s).bind visit)
    (here : ∀ s se se', m.lookup s = some se → visit se = some se' → holds se → holds se') :
    EachEntry holds m' := by
  intro s se' held
  rw [visited] at held
  obtain ⟨se, before, goes⟩ := Option.bind_eq_some_iff.mp held
  exact here s se se' before goes (each s se before)

theorem EachEntry.survives {tree : Bst ServiceEntry} (each : EachEntry holds m) :
    EachEntry holds (survives tree m) :=
  fun s se held => each s se (mem_of_survives held)

/-- What additions, modifications and removals keep of an entry, every call
keeps of all of them. -/
theorem TableEffect.each {table : ServiceTable} {L : Layout} {tree : Bst ServiceEntry}
    {op : TableOp} (effect : TableEffect tree m op m')
    (rep : TableRep table L m) (allowed : TableAllowed table op)
    (each : EachEntry holds m)
    (added :
      ∀ {srvid bits args ret}, op = .add (some srvid) bits args →
        AddEffect m tree (storedPrefix srvid bits) args.weighted ret m' → EachEntry holds m')
    (modified :
      ∀ {srvid bits args se ret se'}, op = .modify (some srvid) bits args →
        m.lookup (storedPrefix srvid bits) = some se → EntryShape se → ModifyOk args.weighted →
        se.modifyTarget args.weighted Allocs.succeed = .ok (ret, se') → holds se → holds se')
    (removed :
      ∀ {type dst dstlen se se'}, EntryShape se → DstOk dst dstlen →
        afterRemove type dst dstlen se = some se' → holds se → holds se')
    (swept :
      ∀ {devname s se se'}, op = .delDevAll devname →
        entryAt table s = some se → EntryShape se → SmallSets se →
        afterDelDev devname se = some se' → holds se → holds se') :
    EachEntry holds m' := by
  cases effect with
  | add srvid bits args ret m' effect => exact added rfl effect
  | modify srvid bits args se ret se' held changed =>
    exact each.insert (modified rfl held (rep.shape _ se held)
      allowed.callable.2.weighted changed (each _ se held))
  | del srvid bits => exact each.assign none (by rintro se ⟨⟩)
  | delTarget srvid bits type dst dstlen t se longest held
  | entryRemoveTarget t type dst dstlen se held =>
    exact each.assign _ fun se' stays => removed (rep.shape t se held)
      allowed.callable.2 stays (each t se held)
  | delTargetAll type dst dstlen m' visited =>
    exact each.bind visited fun s se se' held =>
      removed (rep.shape s se held) allowed.callable
  | delDevAll devname m' visited =>
    refine each.bind visited ?_
    intro s se se' held
    have active := (rep.entryAt_eq s).trans held
    exact swept rfl active (rep.shape s se held) (allowed.countsSets s se active)
  | _ => exact each

end Each

theorem TableAllowed.addForward {table : ServiceTable} {srvid : Option ServiceId} {bits : Nat}
    {address : List UInt8} (size : address.length = inAddrSize)
    (priority weight : UInt32) (device : String)
    (short : bits ≤ 256) :
    TableAllowed table
      (.add srvid bits (forwardRule address priority weight device)) where
  callable := ⟨short, forwardRule_tableOk size ..⟩
  keepsRoot := by
    rintro - se - ⟨⟩
  countsSets := trivial

theorem Reachable.represents {table : ServiceTable} (reachable : Reachable table) :
    ∃ L m, TableRep table L m := by
  obtain ⟨history, admitted, run⟩ := reachable
  have keeps : ∀ table op, (∃ L m, TableRep table L m) → TableAllowed table op →
        ∃ table', tableStep table op = .ok table' ∧
          ∃ L m, TableRep table' L m := by
    intro table op represented allowed
    obtain ⟨L, m, rep⟩ := represented
    obtain ⟨table', L', m', ran, rep', _⟩ := rep.step op allowed
    exact ⟨table', ran, L', m', rep'⟩
  obtain ⟨final, ran, represented⟩ := runAll_keeps keeps ⟨_, _, serviceTableInit_rep⟩ admitted
  rw [run] at ran
  cases ran
  exact represented

end Serval
