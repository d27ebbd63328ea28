import Serval.Service.ReadBack

/-!
# One rule for one destination

An entry should not forward to one destination twice, and an entry that drops
or delays should have no other target. `service_add` looks for the first over
all sets and for the second in the first set only; `service_modify` looks for
neither.
-/

namespace Serval

open Serval.Support

def Target.KeepsBack (t : Target) : Prop := t.type = .drop ∨ t.type = .delay

def forwardDsts (targets : Multiset (UInt32 × Target)) : Multiset (List UInt8) :=
  (targets.filter fun entry => entry.2.type = .forward).map (·.2.dst)

/-- No destination is forwarded to twice, and a rule that keeps packets back
is the only one. -/
structure TargetsUnique (targets : Multiset (UInt32 × Target)) : Prop where
  forwards : (forwardDsts targets).Nodup
  alone : (∃ entry ∈ targets, entry.2.KeepsBack) → targets.card ≤ 1

/-- The counter of the entry is right up to a multiple of `2 ^ 16`. -/
structure EntryUnique (se : ServiceEntry) : Prop where
  targets : TargetsUnique (contents se.targetSet)
  counted : se.count.toUInt16 = UInt16.ofNat (contents se.targetSet).card

section Targets

variable {targets fewer : Multiset (UInt32 × Target)} {priority : UInt32} {t : Target}

private theorem forwardDsts_cons (entry : UInt32 × Target) : forwardDsts (entry ::ₘ targets) =
      if entry.2.type = .forward then
        entry.2.dst ::ₘ forwardDsts targets
      else forwardDsts targets := by
  unfold forwardDsts
  rw [Multiset.filter_cons]
  split
  · rw [Multiset.singleton_add, Multiset.map_cons]
  · rw [zero_add]

private theorem forwardDsts_le (le : fewer ≤ targets) : forwardDsts fewer ≤ forwardDsts targets :=
  Multiset.map_le_map (Multiset.filter_le_filter _ le)

private theorem mem_forwardDsts {dst : List UInt8} : dst ∈ forwardDsts targets ↔
      ∃ entry ∈ targets, entry.2.type = .forward ∧ entry.2.dst = dst := by
  simp only [forwardDsts, Multiset.mem_map, Multiset.mem_filter, and_assoc]

private theorem TargetsUnique.mono (unique : TargetsUnique targets) (le : fewer ≤ targets) :
    TargetsUnique fewer where
  forwards := Multiset.nodup_of_le (forwardDsts_le le) unique.forwards
  alone := by
    intro holds
    obtain ⟨entry, member, here⟩ := holds
    exact (Multiset.card_le_card le).trans
      (unique.alone ⟨entry, Multiset.mem_of_le le member, here⟩)

private theorem TargetsUnique.cons (unique : TargetsUnique targets)
    (new : t.type = .forward → t.dst ∉ forwardDsts targets)
    (first : t.KeepsBack → targets = 0)
    (noneBack : ∀ entry ∈ targets, ¬ entry.2.KeepsBack) :
    TargetsUnique ((priority, t) ::ₘ targets) where
  forwards := by
    rw [forwardDsts_cons]
    split
    · rename_i forward
      exact Multiset.nodup_cons.mpr ⟨new forward, unique.forwards⟩
    · exact unique.forwards
  alone := by
    intro holds
    obtain ⟨entry, member, here⟩ := holds
    rcases Multiset.mem_cons.mp member with same | before
    · rw [same] at here
      rw [first here]
      exact le_rfl
    · exact absurd here (noneBack entry before)

private theorem TargetsUnique.replace {old : UInt32 × Target} {rest : Multiset (UInt32 × Target)}
    (unique : TargetsUnique (old ::ₘ rest)) (le : fewer ≤ rest)
    (type : t.type = old.2.type)
    (new : t.type = .forward → t.dst = old.2.dst ∨ t.dst ∉ forwardDsts rest) :
    TargetsUnique ((priority, t) ::ₘ fewer) where
  forwards := by
    have before := unique.forwards
    rw [forwardDsts_cons] at before ⊢
    rw [← type] at before
    by_cases forward : t.type = .forward
    · rw [if_pos forward] at before ⊢
      obtain ⟨absent, nodup⟩ := Multiset.nodup_cons.mp before
      refine Multiset.nodup_cons.mpr ⟨?_, Multiset.nodup_of_le (forwardDsts_le le) nodup⟩
      intro member
      have inRest := Multiset.mem_of_le (forwardDsts_le le) member
      rcases new forward with same | other
      · rw [same] at inRest
        exact absent inRest
      · exact other inRest
    · rw [if_neg forward] at before ⊢
      exact Multiset.nodup_of_le (forwardDsts_le le) before
  alone := by
    intro holds
    obtain ⟨entry, member, here⟩ := holds
    have few : (old ::ₘ rest).card ≤ 1 := by
      apply unique.alone
      rcases Multiset.mem_cons.mp member with same | before
      · refine ⟨old, Multiset.mem_cons_self old rest, ?_⟩
        rw [same] at here
        unfold Target.KeepsBack at here ⊢
        rwa [← type]
      · exact ⟨entry, Multiset.mem_cons_of_mem (Multiset.mem_of_le le before), here⟩
    rw [Multiset.card_cons] at few ⊢
    have fewer := Multiset.card_le_card le
    omega

end Targets

private theorem serviceEntryCreate_unique : EntryUnique serviceEntryCreate where
  targets := {
    forwards := Multiset.nodup_zero
    alone := by
      intro holds
      obtain ⟨entry, member, _⟩ := holds
      exact absurd member (Multiset.notMem_zero entry) }
  counted := rfl

/-- The modification gives one forwarding rule the destination of another. -/
def Redirects (args : ModifyArgs) (se : ServiceEntry) : Prop :=
  args.type = .forward ∧ args.newDst.isSome = true ∧ args.newDstlen = inAddrSize ∧
    dstBytes args.newDst args.newDstlen ≠ dstBytes args.dst args.dstlen ∧
    dstBytes args.dst args.dstlen ∈ forwardDsts (contents se.targetSet) ∧
    dstBytes args.newDst args.newDstlen ∈ forwardDsts (contents se.targetSet)

section Entries

variable {se se' : ServiceEntry}

/-- A rule that keeps packets back, being the only one, is in the first set,
where `service_add` looks for it. -/
theorem EntryUnique.noneBack (unique : EntryUnique se) (shape : EntryShape se) {type : RuleType}
    {dst : Option Buf} {dstlen : Nat}
    (free : ¬ ∃ t ∈ firstTargets se, Blocks type dst dstlen t) :
    ∀ entry ∈ contents se.targetSet, ¬ entry.2.KeepsBack := by
  intro entry member back
  have few := unique.targets.alone ⟨entry, member, back⟩
  have some := Multiset.card_pos_iff_exists_mem.mpr ⟨entry, member⟩
  have one : (contents se.targetSet).card = 1 := by omega
  obtain ⟨set, t, only, list⟩ := shape.single one
  have counts : se.count ≠ 0 := by
    intro zero
    have counted := unique.counted
    rw [one, zero] at counted
    cases counted
  have same : entry.2 = t := by
    obtain ⟨other, otherMember, _, inSet⟩ := mem_contents.mp member
    rw [only, List.mem_singleton] at otherMember
    rw [otherMember, list, List.mem_singleton] at inSet
    exact inSet
  apply free
  refine ⟨t, ?_, Or.inr (same ▸ back)⟩
  simp [firstTargets, counts, only, list]

theorem EntryUnique.withTarget (unique : EntryUnique se) (shape : EntryShape se) {args : TargetArgs}
    (free : ¬ ∃ t ∈ firstTargets se, Blocks args.type args.dst args.dstlen t)
    (absent : ¬ se.Holds (Gets args.type args.dst args.dstlen (addProtocol args)))
    (alone :
      (newTarget args).KeepsBack →
        ∀ entry ∈ contents se.targetSet, entry.2.KeepsBack) :
    EntryUnique (se.withTarget args) := by
  have noneBack := unique.noneBack shape free
  have added : contents (se.withTarget args).targetSet =
        (args.priority, newTarget args) ::ₘ contents se.targetSet :=
    (targetSetAddTarget_adds (newTarget args)).contents rfl
  constructor
  · rw [added]
    refine unique.targets.cons ?_ ?_ noneBack
    · intro forward member
      obtain ⟨entry, here, kind, same⟩ := mem_forwardDsts.mp member
      apply absent
      refine ServiceEntry.holds_iff.mpr ⟨entry, here, ⟨?_, ?_, ?_⟩, ?_⟩
      · exact kind.trans forward.symm
      · intro demux
        cases forward.symm.trans demux
      · intro _
        right
        rw [same]
        simp [newTarget, dstBytes, List.take_take]
      · intro demux
        cases forward.symm.trans demux
    · intro back
      apply Multiset.eq_zero_of_forall_notMem
      intro entry member
      exact noneBack entry member (alone back entry member)
  · rw [added, Multiset.card_cons, UInt16.ofNat_add, ← unique.counted]
    exact UInt32.toUInt16_add se.count 1

theorem freshEntry_unique (args : TargetArgs) (p : Ptr) : EntryUnique (freshEntry args p) := by
  have made : EntryUnique (serviceEntryCreate.withTarget args) := by
    apply serviceEntryCreate_unique.withTarget serviceEntryCreate_shape
    · intro blocked
      obtain ⟨t, member, _⟩ := blocked
      cases member
    · intro present
      obtain ⟨set, member, _⟩ := present
      cases member
    · intro _ entry member
      exact absurd member (Multiset.notMem_zero entry)
  exact ⟨made.targets, made.counted⟩

/-- The destination that a modification leaves is the old one, or a new one
that no other rule has unless the modification redirects. -/
theorem modified_dst {args : ModifyArgs} (ok : ModifyOk args) (shape : EntryShape se)
    {test : Target → Except Fault Bool} {found : Located}
    (hit : FirstHit test se.targetSet found)
    (gets :
      Gets args.type args.dst args.dstlen MATCH_NO_PROTOCOL
        found.targets.item)
    (someDst : args.dstlen ≠ 0)
    (forward : found.targets.item.type = .forward) :
    (modified args found.targets.item).dst = found.targets.item.dst ∨
      ((modified args found.targets.item).dst ∈ forwardDsts (contents se.targetSet) →
        Redirects args se) := by
  have member : (found.sets.item.priority, found.targets.item) ∈ contents se.targetSet := by
    rw [hit.contents_eq]
    exact Multiset.mem_cons_self _ _
  have size := ((shape.contentsOk _ member).forward forward).2
  have type : args.type = .forward := gets.1.1.symm.trans forward
  have old : found.targets.item.dst = dstBytes args.dst args.dstlen := by
    rcases ok.dst with zero | ⟨length, buf, given, _⟩
    · exact absurd zero someDst
    · rcases gets.1.2.2 type with missing | same
      · rw [given] at missing
        cases missing
      · rwa [length, ← size, List.take_length, size, ← length] at same
  unfold modified
  split
  · rename_i copies
    by_cases same : dstBytes args.newDst args.newDstlen = found.targets.item.dst
    · exact Or.inl same
    right
    intro elsewhere
    refine ⟨type, copies.2, copies.1.trans size, ?_, ?_, elsewhere⟩
    · rwa [← old]
    · rw [← old]
      exact mem_forwardDsts.mpr ⟨_, member, forward, rfl⟩
  · exact Or.inl rfl

private theorem EntryUnique.modifyTarget
    (unique : EntryUnique se) (shape : EntryShape se) {args : ModifyArgs}
    (ok : ModifyOk args) {ret : Int}
    (changed : se.modifyTarget args Allocs.succeed = .ok (ret, se'))
    (keeps : ¬ Redirects args se) : EntryUnique se' := by
  rcases shape.modifyTarget ok with
    ⟨other, _, run⟩ | ⟨found, hit, gets, _, someDst, run⟩
  · rw [run] at changed
    cases changed
    exact unique
  rw [run] at changed
  cases changed
  obtain ⟨kept, fewer, holds, counted, _⟩ := hit.contents_modify shape args
  have before := hit.contents_eq
  constructor
  · have targets := unique.targets
    simp only [holds]
    rw [before] at targets
    refine targets.replace fewer rfl ?_
    intro forward
    rcases modified_dst ok shape hit gets someDst forward with
      same | redirects
    · exact Or.inl same
    right
    intro inRest
    apply keeps
    apply redirects
    rw [before]
    exact Multiset.mem_of_le (forwardDsts_le (Multiset.le_cons_self _ _)) inRest
  · have total := unique.counted
    rw [before, Multiset.card_cons, UInt16.ofNat_add, ← counted] at total
    simp only [holds]
    rw [Multiset.card_cons, UInt16.ofNat_add]
    exact total

theorem EntryUnique.afterRemove (unique : EntryUnique se) (shape : EntryShape se) {type : RuleType}
    {dst : Option Buf} {dstlen : Nat} (ok : DstOk dst dstlen)
    (stays : afterRemove type dst dstlen se = some se') :
    EntryUnique se' := by
  unfold Serval.afterRemove at stays
  rcases shape.removeTarget type ok with
    ⟨_, run⟩ | ⟨found, hit, _, _, run⟩
  · rw [run] at stays
    cases stays
    exact unique
  rw [run] at stays
  simp only at stays
  split at stays
  · cases stays
  cases stays
  have before := hit.contents_eq
  constructor
  · apply unique.targets.mono
    rw [before]
    exact found.contents_without_le.trans (Multiset.le_cons_self _ _)
  · have total := unique.counted
    rw [before, Multiset.card_cons, UInt16.ofNat_add] at total
    rw [UInt32.toUInt16_sub, total, hit.card_without shape]
    exact add_sub_cancel_right _ _

theorem EntryUnique.afterDelDev (unique : EntryUnique se) (shape : EntryShape se) {devname : String}
    (small : SmallSets se) (stays : afterDelDev devname se = some se') :
    EntryUnique se' := by
  obtain ⟨removed, sets, run, _, left, counted⟩ := shape.removeTargetByDev devname small
  unfold Serval.afterDelDev at stays
  rw [run] at stays
  simp only at stays
  split at stays
  · cases stays
  cases stays
  constructor
  · apply unique.targets.mono
    simp only [left]
    exact Multiset.filter_le _ _
  · have total := unique.counted
    rw [← counted, UInt16.ofNat_add] at total
    have same : (UInt32.ofNat removed).toUInt16 = UInt16.ofNat removed :=
      UInt32.toUInt16_ofNat' removed
    rw [UInt32.toUInt16_sub, total, same]
    exact add_sub_cancel_left _ _

end Entries

/-- A rule that keeps packets back is not added beside one that does not, and
no modification redirects a rule to the destination of another. -/
def KeepsUnique (table : ServiceTable) : TableOp → Prop
  | .add (some srvid) prefixBits args =>
    (newTarget args).KeepsBack →
      ∀ se, entryAt table (storedPrefix srvid prefixBits) = some se →
        ∀ entry ∈ contents se.targetSet, entry.2.KeepsBack
  | .modify (some srvid) prefixBits args =>
    ∀ se, entryAt table (storedPrefix srvid prefixBits) = some se → ¬ Redirects args se
  | _ => True

section Histories

variable {table : ServiceTable} {L : Layout} {m m' : BitMap ServiceEntry}
  {tree : Bst ServiceEntry} {op : TableOp}

private theorem AddEffect.unique {key : List Bool} {args : TargetArgs} {ret : Int}
    (effect : AddEffect m tree key args ret m') (rep : TableRep table L m)
    (alone :
      (newTarget args).KeepsBack →
        ∀ se, m.lookup key = some se →
          ∀ entry ∈ contents se.targetSet, entry.2.KeepsBack)
    (unique : EachEntry EntryUnique m) : EachEntry EntryUnique m' := by
  cases effect with
  | refused ret other reason => exact unique
  | extended se valid held free absent =>
    apply unique.insert
    exact (unique _ se held).withTarget (rep.shape _ se held) free absent
      fun back => alone back se held
  | created p valid absent =>
    exact unique.survives.insert (freshEntry_unique args p)

private theorem TableEffect.unique (effect : TableEffect tree m op m') (rep : TableRep table L m)
    (allowed : TableAllowed table op) (keeps : KeepsUnique table op)
    (unique : EachEntry EntryUnique m) : EachEntry EntryUnique m' := by
  refine effect.each rep allowed unique ?_ ?_ ?_ ?_
  · rintro srvid bits args ret rfl effect
    refine effect.unique rep ?_ unique
    intro back se held
    exact keeps back se ((rep.entryAt_eq _).trans held)
  · rintro srvid bits args se ret se' rfl held shape ok changed before
    exact before.modifyTarget shape ok changed (keeps se ((rep.entryAt_eq _).trans held))
  · intro type dst dstlen se se' shape ok stays before
    exact before.afterRemove shape ok stays
  · intro devname s se se' _ _ shape small stays before
    exact before.afterDelDev shape small stays

private theorem tableStep_unique (table : ServiceTable) (op : TableOp)
    (kept : ∃ L m, TableRep table L m ∧ EachEntry EntryUnique m)
    (allowed : TableAllowed table op ∧ KeepsUnique table op) :
    ∃ table', tableStep table op = .ok table' ∧
      ∃ L m, TableRep table' L m ∧ EachEntry EntryUnique m := by
  obtain ⟨L, m, rep, unique⟩ := kept
  obtain ⟨callable, keeps⟩ := allowed
  obtain ⟨table', L', m', run, rep', effect⟩ := rep.step op callable
  exact ⟨table', run, L', m', rep', effect.unique rep callable keeps unique⟩

end Histories

/-- After every history in which no rule that keeps packets back is added
beside one that does not and no modification redirects a rule to the
destination of another, each entry forwards to a destination once, and keeps
packets back with its only target. -/
theorem tableHistory_unique (history : List TableOp)
    (admitted :
      Admits tableStep
        (fun table op => TableAllowed table op ∧ KeepsUnique table op)
        serviceTableInit history) :
    ∃ table, runAll tableStep serviceTableInit history = .ok table ∧
      ∀ s se, entryAt table s = some se → TargetsUnique (contents se.targetSet) := by
  obtain ⟨table, run, L, m, rep, unique⟩ := runAll_keeps tableStep_unique
      ⟨_, _, serviceTableInit_rep, EachEntry.empty⟩ admitted
  refine ⟨table, run, ?_⟩
  intro s se active
  rw [rep.entryAt_eq] at active
  exact (unique s se active).targets

def redirect (old new : List UInt8) : ModifyArgs where
  type := .forward
  flags := 0
  priority := 1
  weight := 1
  dst := some ⟨0, old⟩
  dstlen := inAddrSize
  newDst := some ⟨0, new⟩
  newDstlen := inAddrSize

/-- Two rules, one of which is redirected to a third destination. -/
theorem tableHistory_unique_sample : ∃ table, runAll tableStep serviceTableInit
          [.add (some sampleId) 3 (forwardRule [10, 0, 0, 1] 1 1 "eth0"),
            .add (some sampleId) 3 (forwardRule [10, 0, 0, 2] 1 1 "eth0"),
            .modify (some sampleId) 3
              (redirect [10, 0, 0, 1] [10, 0, 0, 3])] = .ok table ∧
        ∀ s se, entryAt table s = some se → TargetsUnique (contents se.targetSet) := by
  have forwards (last : UInt8) :
      ¬ (newTarget (forwardRule [10, 0, 0, last] 1 1 "eth0")).KeepsBack := by
    intro back
    rcases back with drop | delay
    · cases drop
    · cases delay
  refine tableHistory_unique _ ?_
  refine ⟨⟨.addForward rfl 1 1 "eth0" (by decide), fun back => absurd back (forwards 1)⟩, ?_⟩
  rintro _ ⟨rfl⟩
  refine ⟨⟨.addForward rfl 1 1 "eth0" (by decide), fun back => absurd back (forwards 2)⟩, ?_⟩
  rintro _ ⟨rfl⟩
  refine ⟨⟨⟨⟨by decide, Or.inr ⟨rfl, _, rfl, rfl⟩,
    Or.inr ⟨_, rfl, by decide⟩⟩, fun lonely => absurd lonely (by decide),
    trivial⟩, ?_⟩, ?_⟩
  · rintro _ ⟨rfl⟩ redirects
    exact absurd redirects.2.2.2.2.2 (by decide)
  · intro _ _
    trivial

/-- One of two rules is redirected to the destination of the other, and a
rule that drops packets is added beside a rule that forwards them. -/
theorem redirect_duplicates : (∃ table se, runAll tableStep serviceTableInit
            [.add (some sampleId) 3 (forwardRule [10, 0, 0, 1] 1 1 "eth0"), .add (some sampleId) 3
                (forwardRule [10, 0, 0, 2] 1 1 "eth0"),
              .modify (some sampleId) 3
                (redirect [10, 0, 0, 1] [10, 0, 0, 2])] = .ok table ∧
          entryAt table [true, false, true] = some se ∧
          forwardDsts (contents se.targetSet) = {[10, 0, 0, 2], [10, 0, 0, 2]} ∧
          ¬ TargetsUnique (contents se.targetSet)) ∧
      ∃ table se, runAll tableStep serviceTableInit
            [.add (some sampleId) 3 (forwardRule [10, 0, 0, 1] 1 1 "eth0"), .add (some sampleId) 3
                { forwardRule [10, 0, 0, 1] 1 1 "eth0" with
                  type := .drop }] = .ok table ∧ entryAt table [true, false, true] = some se ∧
          (contents se.targetSet).card = 2 ∧ ¬ TargetsUnique (contents se.targetSet) := by
  refine ⟨⟨_, _, rfl, rfl, rfl, ?_⟩, _, _, rfl, rfl, rfl, ?_⟩
  · intro unique
    exact absurd unique.forwards (by decide)
  · intro unique
    have few := unique.alone ⟨_, Multiset.mem_cons_of_mem
      (Multiset.mem_singleton_self _), Or.inl rfl⟩
    exact absurd few (by decide)

end Serval
