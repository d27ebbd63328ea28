import Serval.Service.TargetSets

/-!
# One service entry

What adding, removing and modifying a target of an entry do, given what their
callers promise, and the shape of the entry that they keep.
-/

namespace Serval

open Serval.Support

def Addressed (dst : Option Buf) (dstlen : Nat) : Prop :=
  dstlen = inAddrSize ∧
    ∃ buf, dst = some buf ∧ buf.bytes.length = inAddrSize

/-- The destination of a lookup: none of it is looked at, or it is an
address. -/
def DstOk (dst : Option Buf) (dstlen : Nat) : Prop := dstlen = 0 ∨ Addressed dst dstlen

def TargetOut.IsSock : TargetOut → Prop
  | .null => False
  | .dev .. => False
  | .sk .. => True

structure AddOk (args : TargetArgs) : Prop where
  dst :
    (args.dstlen = 0 ∧ args.out.IsSock ∧ args.type ≠ .forward) ∨
      (Addressed args.dst args.dstlen ∧ ¬ args.out.IsSock ∧ args.type ≠ .demux)
  nat :
    args.natSet = 0 ∨
      ∃ buf, args.natSrcAddr = some buf ∧ inAddrSize ≤ buf.bytes.length

/-- A modification names an address, and its new destination can be read. -/
structure ModifyOk (args : ModifyArgs) : Prop where
  dst : DstOk args.dst args.dstlen
  newDst :
    args.newDst = none ∨
      ∃ buf, args.newDst = some buf ∧ args.newDstlen ≤ buf.bytes.length

structure TargetOk (t : Target) : Prop where
  demux : t.type = .demux → t.out.IsSock ∧ t.dst = []
  forward : t.type = .forward → ¬ t.out.IsSock ∧ t.dst.length = inAddrSize

def forwardRule (address : List UInt8) (priority weight : UInt32)
    (device : String) : TargetArgs where
  type := .forward
  flags := 0
  priority := priority
  weight := weight
  taasAuth := 0
  dst := some ⟨0, address⟩
  dstlen := inAddrSize
  natSet := 0
  natSrcAddr := none
  out := .dev 0 device

theorem forwardRule_ok {address : List UInt8} (size : address.length = inAddrSize)
    (priority weight : UInt32) (device : String) :
    AddOk (forwardRule address priority weight device) where
  dst := Or.inr ⟨⟨rfl, _, rfl, size⟩, not_false, by simp [forwardRule]⟩
  nat := Or.inl rfl

/-! ## What the tests mean -/

section

variable (type : RuleType) (dst : Option Buf) (dstlen : Nat)

def dstBytes : List UInt8 := (dst.elim [] (·.bytes)).take dstlen

/-- The target that `__service_entry_remove_target` looks for. -/
def Matches (t : Target) : Prop :=
  t.type = type ∧
    ((type = .demux ∧ dstlen = 0) ∨ (type = .forward ∧ t.dst.take dstlen = dstBytes dst dstlen))

/-- The target that `is_target` accepts. -/
def SameTarget (t : Target) : Prop :=
  t.type = type ∧ (type = .demux → dst = none ∨ t.out.raw = dst.map (·.addr)) ∧
    (type = .forward → dst = none ∨ t.dst.take dstlen = dstBytes dst dstlen)

/-- The target that `__service_entry_get_target` looks for. -/
def Gets (protocol : Int) (t : Target) : Prop :=
  SameTarget type dst dstlen t ∧
    (type = .demux → t.out.skProtocol = .ok protocol ∨ protocol = MATCH_ANY_PROTOCOL)

end

def TargetOut.deviceName : TargetOut → Option String
  | .null => none
  | .dev _ name => some name
  | .sk .. => none

/-- The target that `__service_entry_remove_target_by_dev` looks for. -/
def OnDevice (ifname : String) (t : Target) : Prop :=
  t.type = .forward ∧ t.out.deviceName = some ifname

instance (type : RuleType) (dst : Option Buf) (dstlen : Nat) :
    DecidablePred (Matches type dst dstlen) :=
  fun t => inferInstanceAs (Decidable (t.type = type ∧ _))

instance (ifname : String) : DecidablePred (OnDevice ifname) :=
  fun t => inferInstanceAs (Decidable (t.type = .forward ∧ _))

variable {dst : Option Buf} {wanted : Target → Prop} {dstlen : Nat}

theorem memEqual_eq {held : List UInt8} (size : held.length = inAddrSize) (ok : DstOk dst dstlen) :
    memEqual held dst dstlen = .ok (held.take dstlen == dstBytes dst dstlen) := by
  rcases ok with rfl | ⟨rfl, buf, rfl, length⟩
  · simp [memEqual, dstBytes]
  · have positive : inAddrSize ≠ 0 := by decide
    simp [memEqual, readBytes, dstBytes, positive, length, size]

theorem TargetOut.IsSock.exists {out : TargetOut} (sock : out.IsSock) :
    ∃ p protocol, out = .sk p protocol := by
  cases out with
  | null | dev p name => cases sock
  | sk p protocol => exact ⟨p, protocol, rfl⟩

variable {t : Target} {args : TargetArgs}

theorem TargetOk.removes (ok : TargetOk t) (type : RuleType) (dstOk : DstOk dst dstlen) :
    ∃ answer, removesTarget type dst dstlen t = .ok answer ∧
      (answer = true ↔ Matches type dst dstlen t) := by
  unfold removesTarget Matches
  by_cases same : t.type = type
  · subst same
    cases kind : t.type with
    | forward =>
      have size := (ok.forward kind).2
      refine ⟨t.dst.take dstlen == dstBytes dst dstlen, ?_, ?_⟩
      · exact memEqual_eq size dstOk
      · simp
    | demux => exact ⟨decide (dstlen = 0), by simp, by simp⟩
    | undefined | delay | drop | unnamed code => exact ⟨false, by simp, by simp⟩
  · exact ⟨false, by simp [same], by simp [same]⟩

theorem TargetOk.isTarget (ok : TargetOk t) (type : RuleType) (dstOk : DstOk dst dstlen) :
    ∃ answer, isTarget t type dst dstlen = .ok answer ∧
      (answer = true ↔ SameTarget type dst dstlen t) := by
  unfold Serval.isTarget SameTarget
  by_cases same : t.type = type
  · subst same
    cases kind : t.type with
    | forward =>
      have size := (ok.forward kind).2
      cases dst with
      | none => exact ⟨true, by simp, by simp⟩
      | some buf =>
        refine ⟨t.dst.take dstlen == dstBytes (some buf) dstlen, ?_, ?_⟩
        · exact memEqual_eq size dstOk
        · simp
    | demux =>
      cases dst with
      | none => exact ⟨true, by simp, by simp⟩
      | some buf =>
        exact ⟨decide (t.out.raw = some buf.addr), by simp, by simp⟩
    | undefined | delay | drop | unnamed code => exact ⟨true, by simp, by simp⟩
  · exact ⟨false, by simp [same], by simp [same]⟩

theorem TargetOk.gets (ok : TargetOk t) (type : RuleType)
    (dstOk : DstOk dst dstlen) (protocol : Int) :
    ∃ answer, getsTarget type dst dstlen protocol t = .ok answer ∧
      (answer = true ↔ Gets type dst dstlen protocol t) := by
  obtain ⟨same, answered, meaning⟩ := ok.isTarget type dstOk
  unfold getsTarget Gets
  rw [answered, ← meaning]
  by_cases kind : t.type = type
  · cases same with
    | false => exact ⟨false, by simp [kind], by simp⟩
    | true =>
      by_cases demux : type = .demux
      · obtain ⟨p, held, out⟩ := (ok.demux (kind.trans demux)).1.exists
        refine ⟨decide (held = protocol ∨ protocol = MATCH_ANY_PROTOCOL), ?_, ?_⟩
        · simp [kind, demux, out, TargetOut.skProtocol]
        · simp [demux, out, TargetOut.skProtocol]
      · exact ⟨true, by simp [kind, demux], by simp [demux]⟩
  · refine ⟨false, by simp [kind], ?_⟩
    constructor
    · intro impossible
      cases impossible
    · intro gets
      exact absurd (meaning.mp gets.1).1 kind

theorem TargetOk.onDevice (ok : TargetOk t) (ifname : String) :
    ∃ answer, onDevice ifname t = .ok answer ∧ (answer = true ↔ OnDevice ifname t) := by
  unfold Serval.onDevice OnDevice
  by_cases kind : t.type = .forward
  · have notSock := (ok.forward kind).1
    cases out : t.out with
    | null =>
      exact ⟨false, by simp [kind, TargetOut.devNamed], by simp [TargetOut.deviceName]⟩
    | dev p name =>
      refine ⟨name == ifname, by simp [kind, TargetOut.devNamed], ?_⟩
      simp [kind, TargetOut.deviceName]
    | sk p protocol =>
      rw [out] at notSock
      exact absurd trivial notSock
  · exact ⟨false, by simp [kind], by simp [kind]⟩

/-! ## The shape of an entry -/

/-- Sets in strictly decreasing priority, tallied and not empty, of targets
as callers promise them. -/
structure EntryShape (se : ServiceEntry) : Prop where
  descending : Descending se.targetSet
  setOk : ∀ set ∈ se.targetSet, SetOk set
  targetOk : ∀ set ∈ se.targetSet, ∀ t ∈ set.list, TargetOk t

theorem serviceEntryCreate_shape : EntryShape serviceEntryCreate where
  descending := List.Pairwise.nil
  setOk := by
    intro set member
    cases member
  targetOk := by
    intro set member
    cases member

variable {se : ServiceEntry}

theorem EntryShape.total (shape : EntryShape se) {test : Target → Except Fault Bool}
    (means :
      ∀ t, TargetOk t →
        ∃ answer, test t = .ok answer ∧ (answer = true ↔ wanted t)) :
    ∀ set ∈ se.targetSet, ∀ t ∈ set.list, ∃ answer, test t = .ok answer := by
  intro set setMember t member
  obtain ⟨answer, answered, _⟩ := means t (shape.targetOk set setMember t member)
  exact ⟨answer, answered⟩

theorem EntryShape.of_contents {sets : List TargetSet} {count : UInt32}
    (descending : Descending sets) (setOk : ∀ set ∈ sets, SetOk set)
    (targetOk : ∀ entry ∈ contents sets, TargetOk entry.2) :
    EntryShape { se with targetSet := sets, count } where
  descending := descending
  setOk := setOk
  targetOk := by
    intro set setMember t member
    exact targetOk (set.priority, t) (mem_contents.mpr ⟨set, setMember, rfl, member⟩)

theorem EntryShape.contentsOk (shape : EntryShape se) :
    ∀ entry ∈ contents se.targetSet, TargetOk entry.2 := by
  intro entry member
  obtain ⟨set, setMember, _, inSet⟩ := mem_contents.mp member
  exact shape.targetOk set setMember entry.2 inSet

def newTarget (args : TargetArgs) : Target where
  type := args.type
  weight := args.weight
  taasAuth := args.taasAuth
  stats := ⟨0, 0, 0, 0⟩
  out := args.out
  natSet := args.natSet
  natSrcAddr :=
    if args.natSet > 0 then dstBytes args.natSrcAddr inAddrSize
    else List.replicate inAddrSize 0
  dst := dstBytes args.dst args.dstlen

theorem AddOk.create (ok : AddOk args) :
    targetCreate args Allocs.succeed = .ok (some (newTarget args)) := by
  have natSrc : copyNatSrcAddr args = .ok (newTarget args).natSrcAddr := by
    unfold copyNatSrcAddr
    rcases ok.nat with zero | ⟨buf, given, long⟩
    · simp [newTarget, zero]
    have enough : ¬ buf.bytes.length < inAddrSize := by omega
    by_cases positive : args.natSet > 0
    · simp [newTarget, positive, given, readBytes, enough, dstBytes]
    · simp [newTarget, positive]
  have dst : copyTargetDst args = .ok (newTarget args).dst := by
    unfold copyTargetDst
    rcases ok.dst with ⟨zero, _, _⟩ | ⟨⟨size, buf, given, long⟩, _, _⟩
    · simp [newTarget, zero, dstBytes]
    · have positive : inAddrSize > 0 := by decide
      simp [newTarget, size, given, readBytes, long, dstBytes, positive]
  have usable : ¬ (args.dstlen = 0 ∧ args.out.raw = none) := by
    rintro ⟨zero, missing⟩
    rcases ok.dst with ⟨_, sock, _⟩ | ⟨⟨size, _⟩, _, _⟩
    · obtain ⟨p, protocol, out⟩ := sock.exists
      rw [out] at missing
      cases missing
    · rw [zero] at size
      cases size
  unfold targetCreate
  rw [if_neg usable, natSrc, dst]
  rfl

theorem AddOk.newTargetOk (ok : AddOk args) : TargetOk (newTarget args) where
  demux := by
    intro kind
    rcases ok.dst with ⟨zero, sock, _⟩ | ⟨_, _, other⟩
    · exact ⟨sock, by simp [newTarget, dstBytes, zero]⟩
    · exact absurd kind other
  forward := by
    intro kind
    rcases ok.dst with ⟨_, _, other⟩ | ⟨⟨size, buf, given, long⟩, out, _⟩
    · exact absurd kind other
    · exact ⟨out, by simp [newTarget, dstBytes, size, given, long]⟩

theorem AddOk.dstOk (ok : AddOk args) : DstOk args.dst args.dstlen := by
  rcases ok.dst with ⟨zero, _⟩ | ⟨addressed, _⟩
  · exact Or.inl zero
  · exact Or.inr addressed

def addProtocol (args : TargetArgs) : Int :=
  if args.dstlen = 0 then
    match args.out with
    | .sk _ protocol => protocol
    | _ => 0
  else MATCH_NO_PROTOCOL

theorem AddOk.protocol (ok : AddOk args) : addedProtocol args = .ok (addProtocol args) := by
  unfold addedProtocol
  rcases ok.dst with ⟨zero, sock, _⟩ | ⟨⟨size, _⟩, _, _⟩
  · obtain ⟨p, protocol, out⟩ := sock.exists
    simp [addProtocol, zero, out, TargetOut.skProtocol]
  · have positive : inAddrSize ≠ 0 := by decide
    simp [addProtocol, size, positive]

def ServiceEntry.withTarget (se : ServiceEntry) (args : TargetArgs) : ServiceEntry :=
  { se with
    targetSet := placeTarget (targetSetAddTarget · (newTarget args))
        (targetSetCreate args.flags args.priority) se.targetSet
    count := se.count + 1 }

def ServiceEntry.Holds (se : ServiceEntry) (wanted : Target → Prop) : Prop :=
  ∃ set ∈ se.targetSet, ∃ t ∈ set.list, wanted t

theorem ServiceEntry.holds_iff :
    se.Holds wanted ↔ ∃ entry ∈ contents se.targetSet, wanted entry.2 := by
  constructor
  · rintro ⟨set, setMember, t, member, here⟩
    exact ⟨(set.priority, t), mem_contents.mpr ⟨set, setMember, rfl, member⟩, here⟩
  · rintro ⟨entry, member, here⟩
    obtain ⟨set, setMember, _, inSet⟩ := mem_contents.mp member
    exact ⟨set, setMember, entry.2, inSet, here⟩

/-- A walk that stops where the test says so, for a test with a meaning. -/
theorem EntryShape.search (shape : EntryShape se) {test : Target → Except Fault Bool}
    (means :
      ∀ t, TargetOk t →
        ∃ answer, test t = .ok answer ∧ (answer = true ↔ wanted t)) :
    (Refused test se.targetSet ∧ ¬ se.Holds wanted) ∨
      ∃ found, FirstHit test se.targetSet found ∧ wanted found.targets.item ∧ se.Holds wanted := by
  rcases refused_or_firstHit (shape.total means) with
    refused | ⟨found, hit⟩
  · left
    refine ⟨refused, ?_⟩
    rintro ⟨set, setMember, t, member, here⟩
    obtain ⟨answer, answered, meaning⟩ := means t (shape.targetOk set setMember t member)
    rw [refused set setMember t member] at answered
    cases answered
    cases meaning.mpr here
  · right
    obtain ⟨answer, answered, meaning⟩ := means _ (shape.targetOk _ hit.set_mem _ hit.target_mem)
    rw [hit.accepted] at answered
    cases answered
    have here := meaning.mp rfl
    exact ⟨found, hit, here, _, hit.set_mem, _, hit.target_mem, here⟩

/-- An addition finds the target already there, or places the new one. -/
theorem EntryShape.addTarget (shape : EntryShape se) (ok : AddOk args) :
    (se.Holds (Gets args.type args.dst args.dstlen (addProtocol args)) ∧
        ∃ ret, ret ≠ 1 ∧ se.addTarget args Allocs.succeed = .ok (ret, se)) ∨
      (¬ se.Holds (Gets args.type args.dst args.dstlen (addProtocol args)) ∧
        se.addTarget args Allocs.succeed = .ok (1, se.withTarget args)) := by
  rcases shape.search fun t targetOk =>
      targetOk.gets args.type ok.dstOk (addProtocol args) with
    ⟨refused, absent⟩ | ⟨found, hit, _, present⟩
  · right
    refine ⟨absent, ?_⟩
    unfold ServiceEntry.addTarget ServiceEntry.getTarget
    rw [ok.protocol, ok_bind, locate_none refused, ok.create]
    unfold ServiceEntry.withTarget placeTarget
    simp only [targetSetCreate]
    cases getTargetSet se.targetSet args.priority <;> rfl
  · left
    refine ⟨present, ?_⟩
    unfold ServiceEntry.addTarget ServiceEntry.getTarget
    rw [ok.protocol, ok_bind, hit.locate_eq]
    by_cases sock : isSockTarget found.targets.item = true
    · exact ⟨-EADDRINUSE, by decide, by simp [sock]⟩
    · exact ⟨0, by decide, by simp [sock]⟩

theorem EntryShape.withTarget (shape : EntryShape se) (ok : AddOk args) :
    EntryShape (se.withTarget args) := by
  have adds := targetSetAddTarget_adds (newTarget args)
  refine EntryShape.of_contents (adds.descending shape.descending)
    (adds.setOk shape.setOk (targetSetCreate_tallied _ _)) ?_
  intro entry member
  rw [adds.contents rfl, Multiset.mem_cons] at member
  rcases member with rfl | old
  · exact ok.newTargetOk
  · exact shape.contentsOk entry old

/-- The sets that are left when a target has been taken out. -/
def Located.without (found : Located) : List TargetSet :=
  found.sets.before ++ unlessEmpty (targetSetRemoveTarget found.sets.item found.targets) ++
    found.sets.after

section Without

variable {test : Target → Except Fault Bool} {se : ServiceEntry} {found : Located}

theorem FirstHit.setOk (hit : FirstHit test se.targetSet found) (shape : EntryShape se) :
    SetOk found.sets.item :=
  shape.setOk _ hit.set_mem

theorem FirstHit.tallied (hit : FirstHit test se.targetSet found) (shape : EntryShape se) :
    Tallied (targetSetRemoveTarget found.sets.item found.targets) :=
  (hit.setOk shape).toTallied.remove found.targets hit.list

theorem unlessEmpty_sublist (set : TargetSet) : (unlessEmpty set).Sublist [set] := by
  unfold unlessEmpty
  split
  · exact List.nil_sublist _
  · exact List.Sublist.refl _

theorem FirstHit.without_descending
    (hit : FirstHit test se.targetSet found) (shape : EntryShape se) :
    Descending found.without := by
  refine shape.descending.sublist ?_
  rw [hit.sets]
  have fewer := (unlessEmpty_sublist (targetSetRemoveTarget found.sets.item found.targets)).map
        (·.priority)
  simp only [Located.without, Split.whole, List.map_append, List.map_cons, List.append_assoc]
  exact (List.Sublist.refl _).append (fewer.append (List.Sublist.refl _))

theorem FirstHit.without_setOk (hit : FirstHit test se.targetSet found) (shape : EntryShape se) :
    ∀ set ∈ found.without, SetOk set := by
  intro set member
  have old : ∀ set ∈ found.sets.before ++ found.sets.after, SetOk set := by
    intro set member
    apply shape.setOk
    rw [hit.sets]
    simp only [List.mem_append, Split.whole, List.mem_cons] at member ⊢
    rcases member with early | late
    · exact Or.inl early
    · exact Or.inr (Or.inr late)
  unfold Located.without at member
  simp only [List.mem_append] at member
  rcases member with (early | kept) | late
  · exact old set (List.mem_append_left _ early)
  · exact ((hit.tallied shape).unlessEmpty kept).2
  · exact old set (List.mem_append_right _ late)

def Located.rest (found : Located) : Multiset (UInt32 × Target) :=
  contents found.sets.before + ((found.targets.before ++ found.targets.after).map
      (Prod.mk found.sets.item.priority) : Multiset _) +
    contents found.sets.after

theorem contents_split (sets : Split TargetSet) (targets : Split Target) (set : TargetSet)
    (same : set.priority = sets.item.priority)
    (list : set.list = targets.whole) :
    contents { sets with item := set }.whole = (sets.item.priority, targets.item) ::ₘ
        Located.rest ⟨sets, targets⟩ := by
  simp only [Located.rest, Split.whole, contents_append, contents_cons, list, same, List.map_append,
    List.map_cons, ← Multiset.coe_add,
    ← Multiset.cons_coe, ← Multiset.singleton_add]
  abel

theorem FirstHit.contents_eq (hit : FirstHit test se.targetSet found) : contents se.targetSet =
      (found.sets.item.priority, found.targets.item) ::ₘ found.rest := by
  rw [hit.sets]
  exact contents_split found.sets found.targets found.sets.item rfl hit.list

theorem Located.contents_without_le (found : Located) : contents found.without ≤ found.rest := by
  have fewer : contents (unlessEmpty (targetSetRemoveTarget found.sets.item found.targets)) ≤
        ((found.targets.before ++ found.targets.after).map
          (Prod.mk found.sets.item.priority) : Multiset _) := by
    unfold unlessEmpty
    split
    · exact Multiset.zero_le _
    · rw [contents_cons, contents_nil, add_zero]
      rfl
  rw [Located.without, contents_append, contents_append]
  exact add_le_add_left (add_le_add_right fewer _) _

theorem FirstHit.without_shape (hit : FirstHit test se.targetSet found) (shape : EntryShape se)
    (count : UInt32) :
    EntryShape { se with targetSet := found.without, count } := by
  refine EntryShape.of_contents (hit.without_descending shape) (hit.without_setOk shape) ?_
  intro entry member
  apply shape.contentsOk
  rw [hit.contents_eq]
  exact Multiset.mem_cons_of_mem (Multiset.mem_of_le found.contents_without_le member)

/-- Up to a multiple of `2 ^ 16`, the target found is all that is taken
out. -/
theorem FirstHit.card_without (hit : FirstHit test se.targetSet found) (shape : EntryShape se) :
    UInt16.ofNat (contents found.without).card = UInt16.ofNat found.rest.card := by
  have left : UInt16.ofNat (contents (unlessEmpty
          (targetSetRemoveTarget found.sets.item found.targets))).card =
        UInt16.ofNat (found.targets.before ++ found.targets.after).length := by
    unfold unlessEmpty
    split
    · rename_i zero
      have counted := (hit.tallied shape).count
      rw [zero] at counted
      exact counted
    · rw [contents_cons, contents_nil, add_zero, Multiset.coe_card, List.length_map]
      rfl
  rw [Located.without, Located.rest, contents_append, contents_append]
  simp only [Multiset.card_add, UInt16.ofNat_add, left, Multiset.coe_card, List.length_map]

/-- In a set of at most `2 ^ 16` targets, the target found is all that is
taken out. -/
theorem FirstHit.contents_without (hit : FirstHit test se.targetSet found) (shape : EntryShape se)
    (small : found.sets.item.list.length ≤ 2 ^ 16) :
    contents found.without = found.rest := by
  have left : contents (unlessEmpty (targetSetRemoveTarget found.sets.item found.targets)) =
        ((found.targets.before ++ found.targets.after).map
          (Prod.mk found.sets.item.priority) : Multiset _) := by
    unfold unlessEmpty
    split
    · rename_i zero
      have counted := (hit.tallied shape).count
      rw [zero] at counted
      have wrapped := congrArg UInt16.toNat counted
      rw [hit.list] at small
      simp only [Split.whole, List.length_append, List.length_cons,
        targetSetRemoveTarget] at small wrapped
      rw [UInt16.toNat_ofNat_of_lt'] at wrapped
      · have empty : found.targets.before ++ found.targets.after = [] := by
          apply List.eq_nil_of_length_eq_zero
          rw [List.length_append]
          exact wrapped.symm
        rw [empty]
        rfl
      · change _ < 2 ^ 16
        omega
    · rw [contents_cons, contents_nil, add_zero]
      rfl
  rw [Located.without, contents_append, contents_append, left]
  rfl

end Without

/-- A removal takes out the first target that matches, if there is one. -/
theorem EntryShape.removeTarget (shape : EntryShape se) (type : RuleType) (ok : DstOk dst dstlen) :
    (¬ se.Holds (Matches type dst dstlen) ∧ se.removeTarget type dst dstlen = .ok (none, se)) ∨
      ∃ found, FirstHit (removesTarget type dst dstlen) se.targetSet found ∧
          Matches type dst dstlen found.targets.item ∧ se.Holds (Matches type dst dstlen) ∧
          se.removeTarget type dst dstlen = .ok (some found.targets.item.stats,
              { se with
                targetSet := found.without, count := se.count - 1 }) := by
  unfold ServiceEntry.removeTarget
  rcases shape.search fun t targetOk => targetOk.removes type ok with
    ⟨refused, absent⟩ | ⟨found, hit, here, present⟩
  · left
    rw [locate_none refused]
    exact ⟨absent, rfl⟩
  · right
    rw [hit.locate_eq]
    exact ⟨found, hit, here, present, rfl⟩

def modified (args : ModifyArgs) (t : Target) : Target :=
  { t with
    weight := args.weight
    dst :=
      if args.newDstlen = t.dstlen ∧ args.newDst.isSome then
        dstBytes args.newDst args.newDstlen
      else t.dst }

theorem ModifyOk.copyDst {args : ModifyArgs} (ok : ModifyOk args) (t : Target) :
    ∃ copied, Serval.copyDst args t = .ok copied ∧
      { copied with weight := args.weight } = modified args t := by
  unfold Serval.copyDst
  by_cases copies : args.newDstlen = t.dstlen ∧ args.newDst.isSome
  · rcases ok.newDst with missing | ⟨buf, given, long⟩
    · simp [missing] at copies
    have enough : ¬ buf.bytes.length < args.newDstlen := by omega
    refine ⟨{ t with dst := dstBytes args.newDst args.newDstlen }, ?_, ?_⟩
    · rw [if_pos copies, given]
      simp [readBytes, enough, dstBytes]
    · simp [modified, copies]
  · exact ⟨t, if_neg copies, by simp [modified, copies]⟩

theorem ModifyOk.modified_length {args : ModifyArgs} (ok : ModifyOk args) (t : Target) :
    (modified args t).dst.length = t.dst.length := by
  unfold modified
  by_cases copies : args.newDstlen = t.dstlen ∧ args.newDst.isSome
  · rcases ok.newDst with missing | ⟨buf, given, long⟩
    · simp [missing] at copies
    · have size : args.newDstlen = t.dst.length := copies.1
      rw [if_pos copies, dstBytes, given, List.length_take]
      simp only [Option.elim_some]
      omega
  · simp [copies]

theorem ModifyOk.targetOk {args : ModifyArgs} (ok : ModifyOk args)
    (targetOk : TargetOk t) : TargetOk (modified args t) where
  demux := by
    intro kind
    obtain ⟨sock, empty⟩ := targetOk.demux kind
    refine ⟨sock, List.eq_nil_of_length_eq_zero ?_⟩
    rw [ok.modified_length, empty]
    rfl
  forward := by
    intro kind
    obtain ⟨notSock, size⟩ := targetOk.forward kind
    exact ⟨notSock, by rw [ok.modified_length, size]⟩

def Located.modify (found : Located) (args : ModifyArgs) :
    List TargetSet :=
  let t := modified args found.targets.item
  if found.sets.item.priority ≠ args.priority then
    placeTarget (targetSetMoveTarget args.flags t)
      (targetSetCreate args.flags args.priority) found.without
  else
    { found.sets with
      item := { found.sets.item with
        normalizer := found.sets.item.normalizer - found.targets.item.weight + args.weight
        flags := args.flags
        list := { found.targets with item := t }.whole } }.whole

/-- A modification changes the first target it gets, if there is one. -/
theorem EntryShape.modifyTarget (shape : EntryShape se) {args : ModifyArgs} (ok : ModifyOk args) :
    (∃ ret, ret ≠ 1 ∧ se.modifyTarget args Allocs.succeed = .ok (ret, se)) ∨
      ∃ found, FirstHit
            (getsTarget args.type args.dst args.dstlen MATCH_NO_PROTOCOL)
            se.targetSet found ∧
          Gets args.type args.dst args.dstlen MATCH_NO_PROTOCOL
            found.targets.item ∧ args.type ≠ .demux ∧ args.dstlen ≠ 0 ∧
          se.modifyTarget args Allocs.succeed =
            .ok (1, { se with targetSet := found.modify args }) := by
  unfold ServiceEntry.modifyTarget ServiceEntry.getTarget
  by_cases sock : args.type = .demux ∨ args.dstlen = 0
  · left
    exact ⟨-1, by decide, by rw [if_pos sock]; rfl⟩
  rw [if_neg sock]
  rcases shape.search fun t targetOk =>
      targetOk.gets args.type ok.dst MATCH_NO_PROTOCOL with
    ⟨refused, absent⟩ | ⟨found, hit, here, _⟩
  · left
    rw [locate_none refused]
    exact ⟨0, by decide, rfl⟩
  right
  push Not at sock
  refine ⟨found, hit, here, sock.1, sock.2, ?_⟩
  rw [hit.locate_eq]
  obtain ⟨copied, copies, weighted⟩ := ok.copyDst found.targets.item
  simp only [ok_bind, copies]
  unfold Located.modify
  by_cases moves : found.sets.item.priority ≠ args.priority
  · rw [if_pos moves, if_pos moves]
    have descending : Descending found.sets.whole := by
      rw [← hit.sets]
      exact shape.descending
    have kept : ∀ pos ∈ unlessEmpty (targetSetRemoveTarget found.sets.item found.targets),
          pos.priority = found.sets.item.priority := by
      intro pos member
      have same := (unlessEmpty_sublist _).subset member
      rw [List.mem_singleton] at same
      rw [same]
      rfl
    have moved := moveTarget_eq (targetSetMoveTarget args.flags (modified args found.targets.item))
        (targetSetCreate args.flags args.priority)
        rfl descending moves kept _ rfl
    have allocated : ¬ ((getTargetSet se.targetSet args.priority).isNone &&
          !Allocs.succeed.set) = true := by
      simp [Allocs.succeed]
    rw [← hit.sets] at moved
    rw [if_neg allocated, weighted, Located.without, ← moved]
    rfl
  · rw [if_neg moves, if_neg moves, weighted]
    rfl

section Modify

variable {test : Target → Except Fault Bool} {se : ServiceEntry}
  {found : Located} {args : ModifyArgs}

theorem FirstHit.modified_tallied (hit : FirstHit test se.targetSet found) (shape : EntryShape se) :
    SetOk { found.sets.item with
      normalizer := found.sets.item.normalizer - found.targets.item.weight + args.weight
      flags := args.flags
      list :=
        { found.targets with
          item := modified args found.targets.item }.whole } where
  count := by
    rw [(hit.setOk shape).count, hit.list]
    simp [Split.whole]
  normalizer := by
    have before := (hit.setOk shape).normalizer
    rw [hit.list] at before
    simp only [Split.whole, List.map_append, List.map_cons, List.sum_append,
      List.sum_cons] at before ⊢
    rw [before]
    abel
  nonempty := by
    simp [Split.whole]

theorem FirstHit.contents_modify (hit : FirstHit test se.targetSet found) (shape : EntryShape se)
    (args : ModifyArgs) :
    ∃ kept ≤ found.rest, contents (found.modify args) =
          (args.priority, modified args found.targets.item) ::ₘ kept ∧
        UInt16.ofNat kept.card = UInt16.ofNat found.rest.card ∧
        (found.sets.item.list.length ≤ 2 ^ 16 → kept = found.rest) := by
  unfold Located.modify
  by_cases moves : found.sets.item.priority ≠ args.priority
  · refine ⟨contents found.without, found.contents_without_le, ?_, hit.card_without shape,
      hit.contents_without shape⟩
    rw [if_pos moves, (targetSetMoveTarget_adds _ _).contents rfl]
    rfl
  refine ⟨found.rest, le_rfl, ?_, rfl, fun _ => rfl⟩
  rw [if_neg moves, ← not_not.mp moves]
  exact contents_split found.sets { found.targets with item := modified args found.targets.item } _
    rfl rfl

theorem FirstHit.modify_shape (hit : FirstHit test se.targetSet found) (shape : EntryShape se)
    (ok : ModifyOk args) :
    EntryShape { se with targetSet := found.modify args } := by
  have targetOk : ∀ entry ∈ contents (found.modify args), TargetOk entry.2 := by
    obtain ⟨kept, fewer, holds, _⟩ := hit.contents_modify shape args
    have old : ∀ entry ∈ contents se.targetSet, TargetOk entry.2 := shape.contentsOk
    rw [hit.contents_eq] at old
    intro entry member
    rw [holds, Multiset.mem_cons] at member
    rcases member with rfl | member
    · exact ok.targetOk (old _ (Multiset.mem_cons_self _ _))
    · exact old entry (Multiset.mem_cons_of_mem (Multiset.mem_of_le fewer member))
  suffices Descending (found.modify args) ∧ ∀ set ∈ found.modify args, SetOk set from
    EntryShape.of_contents this.1 this.2 targetOk
  unfold Located.modify
  by_cases moves : found.sets.item.priority ≠ args.priority
  · rw [if_pos moves]
    have adds := targetSetMoveTarget_adds args.flags (modified args found.targets.item)
    exact ⟨adds.descending (hit.without_descending shape),
      adds.setOk (hit.without_setOk shape) (targetSetCreate_tallied _ _)⟩
  rw [if_neg moves]
  have descending := shape.descending
  have before := shape.setOk
  rw [hit.sets] at descending before
  refine ⟨descending.congr (by simp [Split.whole]), ?_⟩
  intro set member
  simp only [Split.whole, List.mem_append, List.mem_cons] at member before
  rcases member with early | rfl | late
  · exact before set (Or.inl early)
  · exact hit.modified_tallied shape
  · exact before set (Or.inr (Or.inr late))

end Modify

end Serval
