import Serval.Service.TableRep

/-!
# Adding to the service table

What `service_add` does to the map of entries: it is turned down, it adds a
target to an entry that is there, or it makes an entry.
-/

namespace Serval

open Serval.Support

section Add

variable {table : ServiceTable} {L : Layout} {m : BitMap ServiceEntry}

/-- What a caller of `service_add` promises: a socket, or an address behind a
device. -/
structure TableAddOk (args : TargetArgs) : Prop where
  dst : (args.dstlen = 0 ∧ args.out.IsSock) ∨ (Addressed args.dst args.dstlen ∧ ¬ args.out.IsSock)
  nat :
    args.natSet = 0 ∨
      ∃ buf, args.natSrcAddr = some buf ∧ inAddrSize ≤ buf.bytes.length

theorem forwardRule_tableOk {address : List UInt8} (size : address.length = inAddrSize)
    (priority weight : UInt32) (device : String) :
    TableAddOk (forwardRule address priority weight device) where
  dst := Or.inr ⟨⟨rfl, _, rfl, size⟩, not_false⟩
  nat := Or.inl rfl

variable {args : TargetArgs}

/-- The calls that `service_table_add` does not turn down keep the promise of
`__service_entry_add_target`. -/
theorem TableAddOk.addOk (ok : TableAddOk args) (valid : invalidAdd args = false) : AddOk args where
  dst := by
    rcases ok.dst with ⟨zero, sock⟩ | ⟨addressed, notSock⟩
    · refine Or.inl ⟨zero, sock, ?_⟩
      intro kind
      simp [invalidAdd, kind, zero] at valid
    · refine Or.inr ⟨addressed, notSock, ?_⟩
      intro kind
      simp [invalidAdd, kind, addressed.1, inAddrSize] at valid
  nat := ok.nat

theorem TableAddOk.storable (ok : TableAddOk args) :
    (args.dst.isSome || args.dstlen = 0) = true := by
  rcases ok.dst with ⟨zero, _⟩ | ⟨⟨_, buf, given, _⟩, _⟩
  · simp [zero]
  · simp [given]

/-- The targets that the check for duplicates looks at: those of the first
set. -/
def firstTargets (se : ServiceEntry) : List Target :=
  if se.count = 0 then []
  else
    match se.targetSet with
    | [] => []
    | set :: _ => set.list

/-- A target that makes `service_table_add` return `-EEXIST`. -/
def Blocks (type : RuleType) (dst : Option Buf) (dstlen : Nat) (t : Target) : Prop :=
  SameTarget type dst dstlen t ∨ t.type = .drop ∨ t.type = .delay

theorem findDuplicate_spec (type : RuleType) {dst : Option Buf} {dstlen : Nat}
    (ok : DstOk dst dstlen) {targets : List Target}
    (targetOk : ∀ t ∈ targets, TargetOk t) :
    ∀ (fuel : Nat) (set : TargetSet) (lastPos : Option (List Target)), targets.length < fuel →
      ∃ answer, findDuplicate type dst dstlen fuel
            ⟨.all, some set, some targets, lastPos⟩ = .ok answer ∧
          (answer = true ↔ ∃ t ∈ targets, Blocks type dst dstlen t) := by
  induction targets with
  | nil =>
    intro fuel set lastPos enough
    cases fuel with
    | zero => cases enough
    | succ fuel => exact ⟨false, rfl, by simp⟩
  | cons t rest ih =>
    intro fuel set lastPos enough
    cases fuel with
    | zero => cases enough
    | succ fuel =>
      obtain ⟨same, answered, meaning⟩ := (targetOk t List.mem_cons_self).isTarget type ok
      have next : serviceIterNext ⟨.all, some set, some (t :: rest), lastPos⟩ = .ok (some t,
              ⟨.all, some set, some rest, some (t :: rest)⟩) :=
        rfl
      unfold findDuplicate
      rw [next]
      simp only [answered, ok_bind]
      have stops : (same || t.type = .drop || t.type = .delay) = true ↔
            Blocks type dst dstlen t := by
        simp only [Blocks, Bool.or_eq_true, decide_eq_true_eq, meaning, or_assoc]
      by_cases blocks : Blocks type dst dstlen t
      · rw [if_pos (stops.mpr blocks)]
        exact ⟨true, rfl, iff_of_true rfl ⟨t, List.mem_cons_self, blocks⟩⟩
      rw [if_neg (mt stops.mp blocks)]
      obtain ⟨answer, run, later⟩ := ih (fun other member =>
            targetOk other (List.mem_cons_of_mem t member))
          fuel set (some (t :: rest))
          (Nat.lt_of_succ_lt_succ enough)
      refine ⟨answer, run, ?_⟩
      rw [later, List.exists_mem_cons_iff, or_iff_right blocks]

variable {se : ServiceEntry}

theorem EntryShape.findDuplicate (shape : EntryShape se) (type : RuleType)
    {dst : Option Buf} {dstlen : Nat} (ok : DstOk dst dstlen) :
    ∃ answer, findDuplicate type dst dstlen (serviceIterInit se .all 0).2.rounds
          (serviceIterInit se .all 0).2 = .ok answer ∧
        (answer = true ↔
          ∃ t ∈ firstTargets se, Blocks type dst dstlen t) := by
  cases sets : se.targetSet with
  | nil =>
    have iter : (serviceIterInit se .all 0).2 = ⟨.all, none, none, none⟩ := by
      simp [serviceIterInit, sets]
    rw [iter]
    refine ⟨false, rfl, ?_⟩
    simp [firstTargets, sets]
  | cons set rest =>
    by_cases zero : se.count = 0
    · have iter : (serviceIterInit se .all 0).2 = ⟨.all, none, none, none⟩ := by
        simp [serviceIterInit, sets, zero]
      rw [iter]
      refine ⟨false, rfl, ?_⟩
      simp [firstTargets, zero]
    have iter : (serviceIterInit se .all 0).2 = ⟨.all, some set, some set.list, none⟩ := by
      simp [serviceIterInit, sets, zero]
    have first : firstTargets se = set.list := by simp [firstTargets, sets, zero]
    rw [iter, first]
    refine findDuplicate_spec type ok ?_ _ set none (Nat.lt_succ_self _)
    apply shape.targetOk
    rw [sets]
    exact List.mem_cons_self

theorem ServiceEntry.addTarget_any (se : ServiceEntry) (args : TargetArgs) (alloc : Allocs) :
    se.addTarget args alloc = se.addTarget args Allocs.succeed ∨
      alloc ≠ Allocs.succeed ∧ se.addTarget args alloc = .ok (-ENOMEM, se) := by
  have create : targetCreate args alloc = targetCreate args Allocs.succeed ∨
        alloc.target = false ∧ targetCreate args alloc = .ok none := by
    unfold targetCreate
    split
    · exact Or.inl rfl
    · cases alloc.target with
      | true => exact Or.inl rfl
      | false => exact Or.inr ⟨rfl, rfl⟩
  unfold ServiceEntry.addTarget
  cases addedProtocol args with
  | error fault => exact Or.inl rfl
  | ok protocol =>
    simp only [ok_bind]
    cases se.getTarget args.type args.dst args.dstlen protocol with
    | error fault => exact Or.inl rfl
    | ok found =>
      cases found with
      | some found => exact Or.inl rfl
      | none =>
        rcases create with same | ⟨failed, none⟩
        · rw [same]
          cases targetCreate args Allocs.succeed with
          | error fault => exact Or.inl rfl
          | ok t =>
            cases t with
            | none => exact Or.inl rfl
            | some t =>
              cases getTargetSet se.targetSet args.priority with
              | some split => exact Or.inl rfl
              | none =>
                cases memory : alloc.set with
                | true => exact Or.inl rfl
                | false =>
                  refine Or.inr ⟨?_, rfl⟩
                  rintro rfl
                  cases memory
        · rw [none]
          refine Or.inr ⟨?_, rfl⟩
          rintro rfl
          cases failed

def freshEntry (args : TargetArgs) (p : Ptr) : ServiceEntry :=
  { serviceEntryCreate.withTarget args with node := some p }

theorem freshEntry_shape (ok : AddOk args) (p : Ptr) : EntryShape (freshEntry args p) := by
  have shape := serviceEntryCreate_shape.withTarget ok
  exact {
    descending := shape.descending
    setOk := shape.setOk
    targetOk := shape.targetOk }

theorem setService_self {n : Ptr} (held : getService table n = .ok se) :
    setService table n se = .ok table := by
  rw [getService, Heap.read] at held
  rw [setService, Heap.read]
  cases live : table.tree.heap.get? n with
  | none =>
    rw [live] at held
    cases held
  | some node =>
    rw [live] at held
    cases priv : node.priv with
    | none => simp [priv] at held
    | some other =>
      obtain rfl : other = se := by simpa [priv] using held
      have same : { node with priv := some other } = node := by rw [← priv]
      simp only [ok_bind, same, Heap.write_of_live _ live, Heap.set_of_live live]
      rfl

variable {s : List Bool}

theorem TableRep.addToEntry (rep : TableRep table L m) {p : Ptr}
    (held : m.lookup s = some se) (placed : L.place s = some p)
    (ok : AddOk args) (storable : (args.dst.isSome || args.dstlen = 0) = true)
    (alloc : Allocs) :
    ∃ ret table', addToEntry table p args alloc = .ok (ret, table') ∧
        ((ret ≠ 1 ∧ TableRep table' L m ∧
            (alloc = Allocs.succeed →
              (∃ t ∈ firstTargets se, Blocks args.type args.dst args.dstlen t) ∨
              se.Holds (Gets args.type args.dst args.dstlen (addProtocol args)))) ∨
          (ret = 1 ∧ TableRep table' L (m.insert s (se.withTarget args)) ∧
            (¬ ∃ t ∈ firstTargets se, Blocks args.type args.dst args.dstlen t) ∧
            ¬ se.Holds (Gets args.type args.dst args.dstlen (addProtocol args)))) := by
  have shape := rep.shape s se held
  obtain ⟨duplicate, searched, meaning⟩ := shape.findDuplicate args.type ok.dstOk
  unfold Serval.addToEntry
  simp only [rep.getService held placed, ok_bind, searched]
  cases duplicate with
  | true =>
    exact ⟨-EEXIST, table, rfl, Or.inl ⟨by decide, rep, fun _ => Or.inl (meaning.mp rfl)⟩⟩
  | false =>
    have free : ¬ ∃ t ∈ firstTargets se, Blocks args.type args.dst args.dstlen t := by
      intro blocked
      cases meaning.mpr blocked
    simp only [Bool.false_eq_true, if_false, storable, if_true]
    have unchanged := setService_self (rep.getService held placed)
    rcases se.addTarget_any args alloc with same | ⟨failed, run⟩
    · rw [same]
      rcases shape.addTarget ok with
        ⟨present, ret, other, run⟩ | ⟨absent, run⟩
      · refine ⟨ret, table, ?_, Or.inl ⟨other, rep, fun _ => Or.inr present⟩⟩
        simp only [run, ok_bind, unchanged, pure_eq_ok]
      · obtain ⟨table', set, rep'⟩ := rep.setService (se.withTarget args) held placed rfl
            (shape.withTarget ok)
        refine ⟨1, table', ?_, Or.inr ⟨rfl, rep', free, absent⟩⟩
        simp only [run, ok_bind, set, pure_eq_ok]
    · refine ⟨-ENOMEM, table, ?_, Or.inl ⟨by decide, rep, fun succeeds => absurd succeeds failed⟩⟩
      simp only [run, ok_bind, unchanged, pure_eq_ok]

theorem survives_absent {tree : Bst ServiceEntry} (absent : m.lookup s = none) :
    (survives tree m).lookup s = none := by
  unfold survives
  split
  · exact Finmap.lookup_empty s
  · exact absent

theorem mem_of_survives {tree : Bst ServiceEntry}
    (held : (survives tree m).lookup s = some se) : m.lookup s = some se := by
  unfold survives at held
  split at held
  · cases held
  · exact held

theorem TableRep.survived (rep : TableRep table L m) {tree' : Bst ServiceEntry} {L' : Layout}
    (tree : Represents tree' L' (survives table.tree m))
    (keeps : ∀ s q, s ∈ survives table.tree m → L.place s = some q → L'.place s = some q)
    (entries : tree'.entries = table.tree.entries) :
    TableRep { table with tree := tree' } L' (survives table.tree m) where
  tree := tree
  services := rep.services.trans entries.symm
  node := by
    intro s se held
    have before := mem_of_survives held
    obtain ⟨q, placed⟩ := rep.placed before
    rw [rep.node s se before, placed, keeps s q (Finmap.mem_of_lookup_eq_some held) placed]
  shape s se held := rep.shape s se (mem_of_survives held)

theorem TableRep.addEntry (rep : TableRep table L m) (srvid : ServiceId)
    {bits : Nat} (short : bits ≤ 256)
    (absent : m.lookup (prefixOf srvid bits) = none) (ok : AddOk args)
    (alloc : Allocs) :
    ∃ ret table' L' m', addEntry table srvid bits args alloc = .ok (ret, table') ∧
        TableRep table' L' m' ∧
        (ret = -ENOMEM ∧ alloc ≠ Allocs.succeed ∧ (m' = m ∨ m' = survives table.tree m) ∨
          ret = 1 ∧
            (table.tree.entries = 0 →
              ∀ s q, L'.place s = some q → s <+: prefixOf srvid bits) ∧
            ∃ p, m' = (survives table.tree m).insert (prefixOf srvid bits)
                (freshEntry args p)) := by
  have created : serviceEntryCreate.addTarget args Allocs.succeed =
        .ok (1, serviceEntryCreate.withTarget args) := by
    rcases serviceEntryCreate_shape.addTarget ok with
      ⟨⟨set, member, _⟩, _⟩ | ⟨_, run⟩
    · cases member
    · exact run
  cases entry : alloc.entry with
  | false =>
    refine ⟨-ENOMEM, table, L, m, by simp [Serval.addEntry, entry], rep,
      Or.inl ⟨rfl, ?_, Or.inl rfl⟩⟩
    rintro rfl
    cases entry
  | true =>
  rcases serviceEntryCreate.addTarget_any args alloc with same | ⟨failed, run⟩
  swap
  · exact ⟨-ENOMEM, table, L, m, by simp [Serval.addEntry, entry, run, ENOMEM], rep,
      Or.inl ⟨rfl, failed, Or.inl rfl⟩⟩
  rw [created] at same
  obtain ⟨inserted, tree', L', run, ended, keeps, fresh, whole⟩ :=
    rep.tree.insert_any (bits_le_sid srvid short) (survives_absent absent)
      (some srvOps) (serviceEntryCreate.withTarget args)
      (by
        intro f init
        cases init
        exact le_rfl)
      alloc.node
  rcases ended with ⟨rfl, tree, entries⟩ | ⟨p, rfl, tree, placed⟩
  · refine ⟨-ENOMEM, { table with tree := tree' }, L', _, ?_, rep.survived tree keeps entries,
      Or.inl ⟨rfl, ?_, Or.inr rfl⟩⟩
    · simp [Serval.addEntry, entry, same, run]
    · rintro rfl
      exact whole (fun _ => rfl) rfl
  obtain ⟨stored, set, stored_tree, services, entries⟩ :=
    @setService_represents { table with tree := tree' } _ _ tree _ _ _
      (Finmap.lookup_insert _) placed (freshEntry args p)
  refine ⟨1, { stored with services := stored.services + 1 }, L', _, ?_, ?_,
    Or.inr ⟨rfl, fresh, p, rfl⟩⟩
  · simp only [freshEntry] at set
    simp [Serval.addEntry, entry, same, run, set]
  · rw [Finmap.insert_insert] at stored_tree
    change Represents _ L' ((survives table.tree m).insert (prefixOf srvid bits)
        (freshEntry args p)) at stored_tree
    exact {
      tree := stored_tree
      services := by
        rw [services, rep.services, stored_tree.entries,
          BitMap.card_keys_insert _ (survives_absent absent),
          ← ofNat_succ, rep.tree.survives_entries]
      node := by
        intro t other found
        rw [BitMap.lookup_insert_eq] at found
        by_cases same : t = prefixOf srvid bits
        · rw [if_pos same] at found
          cases found
          rw [same]
          exact placed.symm
        rw [if_neg same] at found
        have before := mem_of_survives found
        obtain ⟨q, here⟩ := rep.placed before
        rw [rep.node t other before, here]
        exact (keeps t q (Finmap.mem_of_lookup_eq_some found) here).symm
      shape := by
        intro t other found
        rw [BitMap.lookup_insert_eq] at found
        by_cases same : t = prefixOf srvid bits
        · rw [if_pos same] at found
          cases found
          exact freshEntry_shape ok p
        · rw [if_neg same] at found
          exact rep.shape t other (mem_of_survives found) }

inductive AddEffect (m : BitMap ServiceEntry) (tree : Bst ServiceEntry) (key : List Bool)
    (args : TargetArgs) : Int → BitMap ServiceEntry → Prop
  /-- The call is turned down. -/
  | refused (ret : Int) (other : ret ≠ 1)
      (reason :
        invalidAdd args = true ∨
          ∃ se, m.lookup key = some se ∧
            ((∃ t ∈ firstTargets se, Blocks args.type args.dst args.dstlen t) ∨
              se.Holds (Gets args.type args.dst args.dstlen (addProtocol args)))) :
      AddEffect m tree key args ret m
  /-- The entry of the prefix gets a target. -/
  | extended (se : ServiceEntry) (valid : invalidAdd args = false) (held : m.lookup key = some se)
      (free : ¬ ∃ t ∈ firstTargets se, Blocks args.type args.dst args.dstlen t)
      (absent : ¬ se.Holds (Gets args.type args.dst args.dstlen (addProtocol args))) :
      AddEffect m tree key args 1 (m.insert key (se.withTarget args))
  /-- The prefix gets an entry. -/
  | created (p : Ptr) (valid : invalidAdd args = false) (absent : m.lookup key = none) :
      AddEffect m tree key args 1
        ((survives tree m).insert key (freshEntry args p))

theorem TableRep.add (rep : TableRep table L m) (srvid : ServiceId)
    {bits : Nat} (short : bits ≤ 256) (ok : TableAddOk args) :
    ∃ ret table' L' m', serviceTableAdd table (some srvid) bits args Allocs.succeed =
          .ok (ret, table') ∧ TableRep table' L' m' ∧
        AddEffect m table.tree (storedPrefix srvid bits) args ret m' ∧
        (ret = 1 → m.lookup (storedPrefix srvid bits) = none →
          table.tree.entries = 0 →
            ∀ s q, L'.place s = some q → s <+: storedPrefix srvid bits) := by
  unfold serviceTableAdd
  cases valid : invalidAdd args with
  | true =>
    exact ⟨-EINVAL, table, L, m, rfl, rep, .refused _ (by decide) (Or.inl valid),
      fun one => absurd one (by decide)⟩
  | false =>
    have addOk := ok.addOk valid
    simp only [Bool.false_eq_true, if_false, rep.findExact srvid (storedBits_le srvid short),
      ok_bind]
    cases held : m.lookup (prefixOf srvid (storedBits srvid bits)) with
    | none =>
      obtain ⟨ret, table', L', m', run, rep', effect⟩ :=
        rep.addEntry srvid (storedBits_le srvid short) held addOk
          Allocs.succeed
      rcases effect with ⟨-, failed, -⟩ | ⟨rfl, fresh, p, rfl⟩
      · exact absurd rfl failed
      · exact ⟨1, table', L', _, run, rep', .created p valid held, fun _ _ => fresh⟩
    | some se =>
      obtain ⟨p, placed⟩ := rep.placed held
      simp only [Option.isSome_some, if_true, placed]
      obtain ⟨ret, table', run, effect⟩ :=
        rep.addToEntry held placed addOk ok.storable Allocs.succeed
      rcases effect with ⟨other, rep', reason⟩ | ⟨rfl, rep', free, absent⟩
      · exact ⟨ret, table', L, m, run, rep', .refused ret other (Or.inr ⟨se, held, reason rfl⟩),
          fun one => absurd one other⟩
      · refine ⟨1, table', L, _, run, rep', .extended se valid held free absent, ?_⟩
        intro _ missing
        exact absurd (held.symm.trans missing) (by simp)

end Add

end Serval
