import Mathlib.Data.Nat.Bitwise
import Serval.Sock.Registry

/-!
# Who owns a target

The DEMUX targets of the service table should be those of the sockets that
registered there. An entry is described by the multiset of the sockets that
its DEMUX targets lead to.
-/

namespace Serval.Registry

open Serval.Support

theorem SockFlag.bit_toNat (flag : SockFlag) :
    ((1 : UInt8) <<< flag.number).toNat = 2 ^ flag.number.toNat := by
  cases flag <;> rfl

theorem SockFlag.number_inj {a b : SockFlag} (same : a.number.toNat = b.number.toNat) : a = b := by
  cases a <;> cases b <;> first | rfl | cases same

variable (flags : UInt8) {se : ServiceEntry}

theorem servalSockFlag_eq (flag : SockFlag) :
    servalSockFlag flags flag = flags.toNat.testBit flag.number.toNat := by
  have zero : flags &&& (1 <<< flag.number) = 0 ↔ flags.toNat &&& 2 ^ flag.number.toNat = 0 := by
    rw [← UInt8.toNat_inj, UInt8.toNat_and, flag.bit_toNat]
    rfl
  simp only [servalSockFlag, ne_eq, zero, Nat.and_two_pow]
  cases flags.toNat.testBit flag.number.toNat <;> simp

theorem servalSockFlag_set (a b : SockFlag) : servalSockFlag (servalSockSetFlag flags a) b =
      (decide (a = b) || servalSockFlag flags b) := by
  have same : a.number.toNat = b.number.toNat ↔ a = b :=
    ⟨SockFlag.number_inj, fun same => by rw [same]⟩
  rw [servalSockFlag_eq, servalSockFlag_eq, servalSockSetFlag, UInt8.toNat_or, Nat.testBit_or,
    a.bit_toNat, Nat.testBit_two_pow,
    Bool.or_comm]
  simp only [same]

/-- To reset `SSK_FLAG_HASHED` leaves it, and `SSK_FLAG_BOUND`, as they were. -/
theorem servalSockFlag_reset : servalSockFlag (servalSockResetFlag flags .hashed) .bound =
      servalSockFlag flags .bound := by
  rw [servalSockFlag, servalSockResetFlag, UInt8.and_assoc]
  rfl

/-! ## Owners of an entry -/

private def demuxed (held : Multiset (UInt32 × Target)) : Multiset (Option Ptr) :=
  (held.filter fun entry => entry.2.type = .demux).map
    fun entry => entry.2.out.raw

def owners (se : ServiceEntry) : Multiset (Option Ptr) := demuxed (contents se.targetSet)

theorem demuxed_le {held other : Multiset (UInt32 × Target)} (le : held ≤ other) :
    demuxed held ≤ demuxed other :=
  Multiset.map_le_map (Multiset.filter_le_filter _ le)

theorem demuxed_cons {entry : UInt32 × Target} (demux : entry.2.type = .demux)
    (rest : Multiset (UInt32 × Target)) :
    demuxed (entry ::ₘ rest) = entry.2.out.raw ::ₘ demuxed rest := by
  simp [demuxed, demux]

theorem mem_owners {p : Ptr} : some p ∈ owners se ↔
      se.Holds fun t => t.type = .demux ∧ t.out.raw = some p := by
  rw [ServiceEntry.holds_iff, owners, demuxed, Multiset.mem_map]
  constructor
  · rintro ⟨entry, member, raw⟩
    obtain ⟨member, demux⟩ := Multiset.mem_filter.mp member
    exact ⟨entry, member, demux, raw⟩
  · rintro ⟨entry, member, demux, raw⟩
    exact ⟨entry, Multiset.mem_filter.mpr ⟨member, demux⟩, raw⟩

theorem owners_eq_zero (none : ¬ se.Holds fun t => t.type = .demux) : owners se = 0 := by
  rw [owners, demuxed, Multiset.map_eq_zero]
  apply Multiset.filter_eq_nil.mpr
  intro entry member demux
  exact none (ServiceEntry.holds_iff.mpr ⟨entry, member, demux⟩)

theorem owners_withTarget (se : ServiceEntry) {args : TargetArgs} (demux : args.type = .demux) :
    owners (se.withTarget args) = args.out.raw ::ₘ owners se := by
  have added : contents (se.withTarget args).targetSet =
        (args.priority, newTarget args) ::ₘ contents se.targetSet :=
    (targetSetAddTarget_adds (newTarget args)).contents rfl
  rw [owners, added]
  exact demuxed_cons demux _

/-- Of an entry with one owner, a removal takes the target of this owner. -/
theorem removed_owner {se' : ServiceEntry} {p : Option Ptr}
    (shape : EntryShape se) (one : owners se = {p})
    (after : afterRemove .demux none 0 se = some se') :
    owners se' = 0 ∧ contents se'.targetSet ≤ contents se.targetSet := by
  rw [afterRemove] at after
  rcases shape.removeTarget .demux (Or.inl rfl) with
    ⟨absent, run⟩ | ⟨found, hit, matching, -, run⟩
  · rw [run] at after
    cases after
    have none : owners se = 0 := by
      apply owners_eq_zero
      rintro ⟨set, setMember, t, member, demux⟩
      exact absent ⟨set, setMember, t, member, demux, Or.inl ⟨rfl, rfl⟩⟩
    exact ⟨none, le_rfl⟩
  · rw [run] at after
    simp only at after
    split at after
    · cases after
    cases after
    have fewer := found.contents_without_le
    have whole := hit.contents_eq
    have rest : demuxed found.rest = 0 := by
      rw [owners, whole, demuxed_cons matching.1] at one
      have counted := congrArg Multiset.card one
      rw [Multiset.card_cons] at counted
      exact Multiset.card_eq_zero.mp (Nat.succ_inj.mp counted)
    refine ⟨Multiset.le_zero.mp ?_, ?_⟩
    · exact (demuxed_le fewer).trans rest.le
    · rw [whole]
      exact fewer.trans (Multiset.le_cons_self _ _)

/-! ## Owners of the table -/

/-- The table leads to the socket at `p` under the prefix. -/
def Demuxes (table : ServiceTable) (key : List Bool) (p : Ptr) : Prop :=
  ∃ se, entryAt table key = some se ∧ se.Holds fun t => t.type = .demux ∧ t.out.raw = some p

/-- The map of entries agrees with the registrations: a registered socket is
the only owner of its entry, and the other entries have no owner. -/
structure Owned (m : BitMap ServiceEntry) (regs : Ptr → Option (List Bool)) : Prop where
  held :
    ∀ p key, regs p = some key →
      ∃ se, m.lookup key = some se ∧ owners se = {some p}
  free : ∀ key se, m.lookup key = some se → (∀ p, regs p ≠ some key) → owners se = 0
  rooted : ∀ p, regs p ≠ some []

/-- The same for the table that represents the map, with the counter of
entries below its wrap. -/
def TableOwned (table : ServiceTable) (regs : Ptr → Option (List Bool)) : Prop :=
  ∃ L m, TableRep table L m ∧ m.keys.card < 2 ^ 32 ∧ Owned m regs

section

variable {table : ServiceTable} {regs : Ptr → Option (List Bool)} {p : Ptr}
  {L : Layout} {m : BitMap ServiceEntry}

variable {key : List Bool} {se : ServiceEntry}

theorem Owned.owner (owned : Owned m regs) (held : m.lookup key = some se)
    (mine : some p ∈ owners se) : regs p = some key := by
  by_cases taken : ∃ q, regs q = some key
  · obtain ⟨q, registered⟩ := taken
    obtain ⟨se', held', one⟩ := owned.held q key registered
    rw [held] at held'
    cases held'
    rw [one, Multiset.mem_singleton] at mine
    cases mine
    exact registered
  · have none := owned.free key se held (fun q here => taken ⟨q, here⟩)
    rw [none] at mine
    exact absurd mine (Multiset.notMem_zero _)

theorem TableOwned.demuxes_iff (owned : TableOwned table regs) (key : List Bool) (p : Ptr) :
    Demuxes table key p ↔ regs p = some key := by
  obtain ⟨L, m, rep, -, owned⟩ := owned
  constructor
  · rintro ⟨se, here, holds⟩
    rw [rep.entryAt_eq] at here
    exact owned.owner here (mem_owners.mpr holds)
  · intro registered
    obtain ⟨se, here, one⟩ := owned.held p key registered
    refine ⟨se, by rw [rep.entryAt_eq, here], mem_owners.mp ?_⟩
    rw [one]
    exact Multiset.mem_singleton_self _

structure Fewer (table table' : ServiceTable) : Prop where
  entries : table'.tree.entries.toNat ≤ table.tree.entries.toNat
  targets :
    ∀ key se', entryAt table' key = some se' →
      ∃ se, entryAt table key = some se ∧ contents se'.targetSet ≤ contents se.targetSet

theorem Fewer.refl : Fewer table table := ⟨le_rfl, fun _ se here => ⟨se, here, le_rfl⟩⟩

/-- One registration less: its entry loses its only owner or goes. -/
theorem Owned.assign (owned : Owned m regs) (mine : regs p = some key) {after : Option ServiceEntry}
    (left : ∀ se', after = some se' → owners se' = 0) :
    Owned (m.assign key after) (Function.update regs p none) where
  held := by
    intro q key' registered
    have other : q ≠ p := by
      rintro rfl
      rw [Function.update_self] at registered
      cases registered
    rw [Function.update_of_ne other] at registered
    obtain ⟨se, here, one⟩ := owned.held q key' registered
    refine ⟨se, ?_, one⟩
    rw [BitMap.lookup_assign, if_neg ?_, here]
    rintro rfl
    obtain ⟨se', here', one'⟩ := owned.held p key' mine
    rw [here] at here'
    cases here'
    rw [one, Multiset.singleton_inj] at one'
    exact other (Option.some.inj one')
  free := by
    intro key' se here unregistered
    rw [BitMap.lookup_assign] at here
    split at here
    · exact left se here
    rename_i different
    refine owned.free key' se here ?_
    intro q registered
    by_cases same : q = p
    · rw [same, mine] at registered
      exact different (Option.some.inj registered).symm
    · apply unregistered q
      rw [Function.update_of_ne same, registered]
  rooted := by
    intro q atRoot
    by_cases same : q = p
    · rw [same, Function.update_self] at atRoot
      cases atRoot
    · rw [Function.update_of_ne same] at atRoot
      exact owned.rooted q atRoot

theorem TableOwned.remove (owned : TableOwned table regs) (srvid : ServiceId) {bits : Nat}
    (short : bits ≤ 256) (mine : regs p = some (prefixOf srvid bits)) :
    ∃ stats table', serviceDelTarget table srvid bits .demux none 0 = .ok (stats, table') ∧
        TableOwned table' (Function.update regs p none) ∧ Fewer table table' := by
  obtain ⟨L, m, rep, few, owned⟩ := owned
  obtain ⟨se, here, one⟩ := owned.held p _ mine
  have present : prefixOf srvid bits ∈ m := Finmap.mem_of_lookup_eq_some here
  rcases rep.delTarget srvid short .demux (show DstOk none 0 from Or.inl rfl) with
    ⟨absent, -⟩ | ⟨s, se', longest, here', run⟩
  · exact absurd present (absent _ (List.prefix_refl _))
  have atKey : s = prefixOf srvid bits := longest.unique
      ⟨List.prefix_refl _, present, fun t begins _ => begins.length_le⟩
  subst atKey
  rw [here] at here'
  cases here'
  have deep : prefixOf srvid bits ≠ [] := by
    intro atRoot
    rw [atRoot] at mine
    exact owned.rooted p mine
  obtain ⟨stats, table', L', ran, -, rep'⟩ := run fun _ => Or.inl deep
  have removed : ∀ se', afterRemove .demux none 0 se = some se' →
        owners se' = 0 ∧ contents se'.targetSet ≤ contents se.targetSet :=
    fun se' after => removed_owner (rep.shape _ se here) one after
  have fewer : (m.assign (prefixOf srvid bits) (afterRemove .demux none 0 se)).keys ⊆ m.keys := by
    intro t member
    exact BitMap.mem_of_mem_assign here member
  have count := Finset.card_le_card fewer
  refine ⟨stats, table', ran, ⟨L', _, rep', count.trans_lt few, ?_⟩, ?_, ?_⟩
  · exact owned.assign mine fun se' after => (removed se' after).1
  · rw [rep'.tree.entries, rep.tree.entries, UInt32.toNat_ofNat_of_lt' few,
      UInt32.toNat_ofNat_of_lt' (count.trans_lt few)]
    exact count
  · intro key se' after
    rw [rep'.entryAt_eq, BitMap.lookup_assign] at after
    split at after
    · rename_i same
      rw [same, rep.entryAt_eq]
      exact ⟨se, here, (removed se' after).2⟩
    · exact ⟨se', by rw [rep.entryAt_eq, after], le_rfl⟩

/-- No target of the entry stands in the way of a socket, or belongs to one;
the target of the socket at `p` apart. -/
def Vacant (table : ServiceTable) (p : Ptr) (key : List Bool) : Prop :=
  ∀ se, entryAt table key = some se →
    ¬ se.Holds fun t =>
      t.type = .drop ∨ t.type = .delay ∨ t.type = .demux ∧ t.out.raw ≠ some p

theorem demuxRule_ok (sk : RegSock) (p : Ptr) : TableAddOk (demuxRule sk p) where
  dst := Or.inl ⟨rfl, trivial⟩
  nat := Or.inl rfl

theorem Owned.insert (owned : Owned m regs) {key : List Bool} (deep : key ≠ [])
    (unregistered : ∀ q, regs q ≠ some key) (mine : regs p = none)
    {se : ServiceEntry} (one : owners se = {some p}) :
    Owned (m.insert key se) (Function.update regs p (some key)) where
  held := by
    intro q key' registered
    by_cases same : q = p
    · rw [same, Function.update_self] at registered
      cases registered
      exact ⟨se, by simp, same ▸ one⟩
    rw [Function.update_of_ne same] at registered
    obtain ⟨se', here, one'⟩ := owned.held q key' registered
    refine ⟨se', ?_, one'⟩
    rw [BitMap.lookup_insert_eq, if_neg ?_, here]
    rintro rfl
    exact unregistered q registered
  free := by
    intro key' se' here none
    rw [BitMap.lookup_insert_eq] at here
    split at here
    · rename_i same
      exact absurd (by rw [Function.update_self, same]) (none p)
    refine owned.free key' se' here ?_
    intro q registered
    have other : q ≠ p := by
      rintro rfl
      rw [mine] at registered
      cases registered
    apply none q
    rw [Function.update_of_ne other, registered]
  rooted := by
    intro q atRoot
    by_cases same : q = p
    · rw [same, Function.update_self] at atRoot
      exact deep (Option.some.inj atRoot)
    · rw [Function.update_of_ne same] at atRoot
      exact owned.rooted q atRoot

theorem mem_firstTargets {t : Target} (member : t ∈ firstTargets se) :
    ∃ set ∈ se.targetSet, t ∈ set.list := by
  rw [firstTargets] at member
  split at member
  · cases member
  · split at member
    · cases member
    · rename_i set rest sets
      exact ⟨set, by rw [sets]; exact List.mem_cons_self, member⟩

/-- A target that keeps a socket from being added, or belongs to one. -/
def standsInTheWay (t : Target) : Prop := t.type = .drop ∨ t.type = .delay ∨ t.type = .demux

theorem Owned.vacant (owned : Owned m regs) (rep : TableRep table L m)
    (mine : regs p = none) (vacant : Vacant table p key)
    (here : m.lookup key = some se) : ¬ se.Holds standsInTheWay := by
  have allowed := vacant se (by rw [rep.entryAt_eq, here])
  rintro ⟨set, setMember, t, member, drop | delay | demux⟩
  · exact allowed ⟨set, setMember, t, member, .inl drop⟩
  · exact allowed ⟨set, setMember, t, member, .inr (.inl delay)⟩
  · by_cases own : t.out.raw = some p
    · have owner := owned.owner here (mem_owners.mpr ⟨set, setMember, t, member, demux, own⟩)
      rw [mine] at owner
      cases owner
    · exact allowed ⟨set, setMember, t, member, .inr (.inr ⟨demux, own⟩)⟩

theorem owners_of_vacant (vacant : ¬ se.Holds standsInTheWay) : owners se = 0 := by
  apply owners_eq_zero
  rintro ⟨set, setMember, t, member, demux⟩
  exact vacant ⟨set, setMember, t, member, .inr (.inr demux)⟩

theorem not_refused {args : TargetArgs} (demux : args.type = .demux)
    (valid : invalidAdd args = false)
    (vacant : ∀ se, m.lookup key = some se → ¬ se.Holds standsInTheWay)
    (reason :
      invalidAdd args = true ∨
        ∃ se, m.lookup key = some se ∧
          ((∃ t ∈ firstTargets se, Blocks args.type args.dst args.dstlen t) ∨
            se.Holds
              (Gets args.type args.dst args.dstlen (addProtocol args)))) :
    False := by
  rcases reason with invalid | ⟨se, here, ⟨t, first, blocks⟩ | ⟨set, setMember, t, member, gets⟩⟩
  · rw [valid] at invalid
    cases invalid
  · obtain ⟨set, setMember, member⟩ := mem_firstTargets first
    refine vacant se here ⟨set, setMember, t, member, ?_⟩
    rcases blocks with same | drop | delay
    · exact .inr (.inr (same.1.trans demux))
    · exact .inl drop
    · exact .inr (.inl delay)
  · exact vacant se here ⟨set, setMember, t, member, .inr (.inr (gets.1.1.trans demux))⟩

theorem TableOwned.add (owned : TableOwned table regs) (sk : RegSock) (srvid : ServiceId)
    {bits : Nat} (short : bits ≤ 256)
    (deep : storedPrefix srvid bits ≠ []) (mine : regs p = none)
    (vacant : Vacant table p (storedPrefix srvid bits))
    (room : table.tree.entries.toNat + 1 < 2 ^ 32) :
    ∃ table', serviceAdd table (some srvid) bits (demuxRule sk p) Allocs.succeed = .ok (1, table') ∧
        TableOwned table'
          (Function.update regs p (some (storedPrefix srvid bits))) := by
  obtain ⟨L, m, rep, few, owned⟩ := owned
  rw [rep.tree.entries, UInt32.toNat_ofNat_of_lt' few] at room
  obtain ⟨ret, table', L', m', run, rep', effect, -⟩ :=
    rep.add srvid short (demuxRule_ok sk p).weighted
  have nobody : ∀ se, m.lookup (storedPrefix srvid bits) = some se → ¬ se.Holds standsInTheWay :=
    fun se here => owned.vacant rep mine vacant here
  have unregistered : ∀ q, regs q ≠ some (storedPrefix srvid bits) := by
    intro q registered
    obtain ⟨se, here, one⟩ := owned.held q _ registered
    rw [owners_of_vacant (nobody se here)] at one
    exact absurd one.symm (Multiset.singleton_ne_zero _)
  cases effect with
  | refused ret other reason => exact (not_refused rfl rfl nobody reason).elim
  | extended se valid here free absent =>
    refine ⟨table', run, L', _, rep', ?_, ?_⟩
    · rw [BitMap.card_keys_replace _ here]
      exact few
    · apply owned.insert deep unregistered mine
      rw [owners_withTarget se rfl, owners_of_vacant (nobody se here)]
      rfl
  | created n valid absent =>
    rw [rep.tree.survives_of_room few] at rep'
    refine ⟨table', run, L', _, rep', ?_, ?_⟩
    · rw [BitMap.card_keys_insert _ absent]
      exact room
    · apply owned.insert deep unregistered mine
      exact owners_withTarget serviceEntryCreate rfl

end

end Serval.Registry
