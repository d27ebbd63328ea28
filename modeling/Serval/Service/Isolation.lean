import Serval.Service.ReadBack

/-!
# Prefixes that are left alone

A call that names a prefix should leave the entries of all other prefixes as
they are. `service_del` and `service_modify` do so. `service_del_target`
works on the entry of the longest prefix, which may be shorter than the prefix
of the call.
-/

namespace Serval

open Serval.Support

inductive PrefixOp where
  | del
  | delTarget (type : RuleType) (dst : Option Buf) (dstlen : Nat)
  | modify (args : ModifyArgs)

section

variable (table : ServiceTable) (op : PrefixOp) (srvid : ServiceId) (prefixBits : Nat)

def PrefixOp.call :
    TableOp :=
  match op with
  | .del => .del srvid prefixBits
  | .delTarget type dst dstlen => .delTarget srvid prefixBits type dst dstlen
  | .modify args => .modify (some srvid) prefixBits args

/-- The prefix that the call names. `service_modify` takes the all-zero id
for the default service, as `service_add` does. -/
def PrefixOp.key :
    List Bool :=
  match op with
  | .del => prefixOf srvid prefixBits
  | .delTarget .. => prefixOf srvid prefixBits
  | .modify _ => storedPrefix srvid prefixBits

/-- The call returns, and every entry of another prefix is still there and
as it was. -/
def Isolated : Prop :=
  ∃ table', tableStep table (op.call srvid prefixBits) = .ok table' ∧
    ∀ s se, s ≠ op.key srvid prefixBits → entryAt table s = some se → entryAt table' s = some se

def LongestStored (key s : List Bool) : Prop :=
  IsLongest (fun t => (entryAt table t).isSome = true) key s

/-- A target that `service_del_target` takes is one of the prefix it was
called with, and not the last one of a root without children. -/
def TakesOwn : Prop :=
  match op with
  | .del => True
  | .modify _ => True
  | .delTarget type dst dstlen =>
    (∀ s se, LongestStored table (prefixOf srvid prefixBits) s →
      entryAt table s = some se → se.Holds (Matches type dst dstlen) →
        s = prefixOf srvid prefixBits) ∧
    (lonelyRoot table = true →
      ∀ se, entryAt table [] = some se → ¬ LastMatch type dst dstlen se)

end

section Isolation

variable {table : ServiceTable} {L : Layout} {m : BitMap ServiceEntry}

private theorem TableRep.longestStored_iff (rep : TableRep table L m) (key s : List Bool) :
    LongestStored table key s ↔ IsLongest (· ∈ m) key s := by
  have same : (fun t => (entryAt table t).isSome = true) = fun t => t ∈ m := by
    funext t
    rw [rep.entryAt_eq, Finmap.lookup_isSome]
  rw [LongestStored, same]

variable {op : PrefixOp} {srvid : ServiceId} {bits : Nat}

private theorem TableRep.keepsRoot_of_takesOwn (own : TakesOwn table op srvid bits) :
    KeepsRoot table (op.call srvid bits) := by
  cases op with
  | del =>
    intro _ se _ goes
    exact goes
  | delTarget type dst dstlen => exact own.2
  | modify args =>
    intro _ se _ goes
    exact goes

private theorem PrefixOp.countsSets (table : ServiceTable) (op : PrefixOp) (srvid : ServiceId)
    (bits : Nat) : CountsSets table (op.call srvid bits) := by
  cases op with
  | del | delTarget | modify => trivial

/-- A call that takes only what is its own leaves the rest alone. -/
theorem TableRep.isolated (rep : TableRep table L m)
    (callable : TableCallable table (op.call srvid bits))
    (own : TakesOwn table op srvid bits) : Isolated table op srvid bits := by
  have allowed : TableAllowed table (op.call srvid bits) :=
    ⟨callable, TableRep.keepsRoot_of_takesOwn own, op.countsSets ..⟩
  obtain ⟨table', L', m', run, rep', effect⟩ := rep.step _ allowed
  refine ⟨table', run, ?_⟩
  intro s se other active
  rw [rep.entryAt_eq] at active
  rw [rep'.entryAt_eq]
  cases op with
  | del =>
    cases effect
    rw [BitMap.lookup_erase_eq]
    exact (if_neg other).trans active
  | modify args =>
    cases effect with
    | modifyAbsent => exact active
    | modify =>
      rw [BitMap.lookup_insert_eq]
      exact (if_neg other).trans active
  | delTarget type dst dstlen =>
    cases effect with
    | delTargetAbsent => exact active
    | delTarget _ _ _ _ _ t se' longest held =>
      rw [BitMap.lookup_assign]
      by_cases here : s = t
      · subst here
        cases active.symm.trans held
        have absent : ¬ se.Holds (Matches type dst dstlen) := by
          intro present
          exact other (own.1 s se ((rep.longestStored_iff _ s).mpr longest)
            ((rep.entryAt_eq s).trans held) present)
        rw [if_pos rfl, (rep.shape s se held).afterRemove_of_absent callable.2 absent]
      · rw [if_neg here, active]

theorem EntryShape.afterRemove_ne {se : ServiceEntry} (shape : EntryShape se) {type : RuleType}
    {dst : Option Buf} {dstlen : Nat} (ok : DstOk dst dstlen)
    (present : se.Holds (Matches type dst dstlen)) :
    afterRemove type dst dstlen se ≠ some se := by
  unfold afterRemove
  rcases shape.removeTarget type ok with
    ⟨absent, _⟩ | ⟨found, _, _, _, run⟩
  · exact absurd present absent
  rw [run]
  simp only
  split
  · simp
  · intro same
    have counts : se.count - 1 = se.count := congrArg ServiceEntry.count (Option.some.inj same)
    rw [sub_eq_self] at counts
    cases counts

/-- A deletion that returns has not released a root without children. -/
theorem TableRep.keepsRoot_of_ok (rep : TableRep table L m)
    (short : bits ≤ 256) {type : RuleType} {dst : Option Buf} {dstlen : Nat}
    (ok : DstOk dst dstlen) {result : Option TargetStats × ServiceTable}
    (run : serviceDelTarget table srvid bits type dst dstlen = .ok result) :
    KeepsRoot table (.delTarget srvid bits type dst dstlen) := by
  intro lonely se active last
  rw [rep.entryAt_eq] at active
  rw [rep.delTarget_lonely srvid short ok active lonely last] at run
  cases run

private theorem TableRep.takesOwn (rep : TableRep table L m)
    (callable : TableCallable table (op.call srvid bits))
    (isolated : Isolated table op srvid bits) :
    TakesOwn table op srvid bits := by
  cases op with
  | del | modify args => trivial
  | delTarget type dst dstlen =>
    obtain ⟨table', run, alone⟩ := isolated
    obtain ⟨_, deleted, _⟩ := of_bind run
    have keeps := rep.keepsRoot_of_ok callable.1 callable.2 deleted
    refine ⟨?_, keeps⟩
    intro s se longest active present
    by_contra other
    obtain ⟨after, L', m', ran, rep', effect⟩ := rep.step (.delTarget srvid bits type dst dstlen)
        ⟨callable, keeps, trivial⟩
    cases run.symm.trans ran
    have kept := alone s se other active
    rw [rep.longestStored_iff] at longest
    rw [rep.entryAt_eq] at active
    rw [rep'.entryAt_eq] at kept
    cases effect with
    | delTargetAbsent _ _ _ _ _ absent =>
      exact absent s longest.begins longest.here
    | delTarget _ _ _ _ _ t se' isLongest held =>
      rw [← longest.unique isLongest] at held kept
      rw [BitMap.lookup_assign, if_pos rfl] at kept
      cases active.symm.trans held
      exact (rep.shape s se held).afterRemove_ne callable.2 present kept

end Isolation

/-- In every reachable table, a call leaves the entries of all other prefixes
alone exactly when the target it takes is one of its own prefix. -/
theorem isolated_iff_takesOwn {table : ServiceTable} (reachable : Reachable table) (op : PrefixOp)
    (srvid : ServiceId) (prefixBits : Nat)
    (callable : TableCallable table (op.call srvid prefixBits)) :
    Isolated table op srvid prefixBits ↔ TakesOwn table op srvid prefixBits := by
  obtain ⟨L, m, rep⟩ := reachable.represents
  exact ⟨rep.takesOwn callable, rep.isolated callable⟩

def sampleRule : TableOp := .add (some sampleId) 3 (forwardRule [10, 0, 0, 1] 1 1 "eth0")

theorem sampleRule_admitted : Admits tableStep TableAllowed serviceTableInit [sampleRule] :=
  ⟨.addForward rfl 1 1 "eth0" (by decide), fun _ _ => trivial⟩

def nestedRule : TableOp := .add (some sampleId) 9 (forwardRule [10, 0, 0, 2] 1 1 "eth0")

private theorem nestedRule_admitted :
    Admits tableStep TableAllowed serviceTableInit [sampleRule, nestedRule] :=
  ⟨.addForward rfl 1 1 "eth0" (by decide), fun _ _ =>
    ⟨.addForward rfl 1 1 "eth0" (by decide), fun _ _ => trivial⟩⟩

/-- Of two nested prefixes the longer one loses its rule under its own name,
and the shorter one keeps what it has. -/
theorem isolated_iff_takesOwn_sample : ∃ table,
      runAll tableStep serviceTableInit [sampleRule, nestedRule] = .ok table ∧
        (entryAt table [true, false, true]).isSome = true ∧
        Isolated table (.delTarget .forward (some ⟨0, [10, 0, 0, 2]⟩) 4) sampleId 9 := by
  obtain ⟨table, run, test⟩ := exists_of_leaves (show leaves
      (runAll tableStep serviceTableInit [sampleRule, nestedRule]) (fun table =>
        (entryAt table [true, false, true]).isSome &&
          (entryAt table (prefixOf sampleId 9)).isSome && !lonelyRoot table) = true by
    decide +kernel)
  simp only [Bool.and_eq_true, Bool.not_eq_true'] at test
  obtain ⟨⟨shorter, longer⟩, crowded⟩ := test
  refine ⟨table, run, shorter, (isolated_iff_takesOwn ⟨_, nestedRule_admitted, run⟩
    (.delTarget .forward (some ⟨0, [10, 0, 0, 2]⟩) 4) sampleId 9
    ⟨by decide, Or.inr ⟨rfl, _, rfl, rfl⟩⟩).mpr ⟨?_, ?_⟩⟩
  · intro s se longest _ _
    exact longest.unique ⟨List.prefix_rfl, longer, fun t begins _ => begins.length_le⟩
  · rw [crowded]
    rintro ⟨⟩

/-- Deleting a target of nine bits that are not in the table takes the target
of the three bits that are. -/
theorem delTarget_takes_shorter : ∃ table table' se,
      Admits tableStep TableAllowed serviceTableInit [sampleRule] ∧
        runAll tableStep serviceTableInit [sampleRule] = .ok table ∧
        entryAt table [true, false, true] = some se ∧ entryAt table (prefixOf sampleId 9) = none ∧
        tableStep table (.delTarget sampleId 9 .forward (some ⟨0, [10, 0, 0, 1]⟩) 4) = .ok table' ∧
        entryAt table' [true, false, true] = none ∧
        ¬ Isolated table (.delTarget .forward (some ⟨0, [10, 0, 0, 1]⟩) 4)
          sampleId 9 := by
  refine ⟨_, _, _, sampleRule_admitted, rfl, rfl, rfl, rfl, rfl, ?_⟩
  intro isolated
  obtain ⟨table', run, alone⟩ := isolated
  cases run
  have kept := alone [true, false, true] _ (by decide) rfl
  cases kept

end Serval
