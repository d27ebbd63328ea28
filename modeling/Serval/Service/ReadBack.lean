import Serval.Bst.Sound
import Serval.Service.TableHistory

/-!
# Reading ids back

In every reachable table a node knows its own prefix: the ids and prefix
lengths that `service_get_id` and `service_get_prefix_bits` report are those
under which the entries were added.
-/

namespace Serval

open Serval.Support

abbrev Births := List Bool → Option (ServiceId × Nat)

/-- An entry that was there keeps its birth, and a new one is born with the
call. -/
def birthsAfter (before after : ServiceTable) (op : TableOp) (born : Births) : Births :=
  fun s =>
    if (entryAt after s).isSome then
      if (entryAt before s).isSome then born s else op.inserts
    else none

def bornStep (state : ServiceTable × Births) (op : TableOp) :
    Except Fault (ServiceTable × Births) := do
  let table ← tableStep state.1 op
  return (table, birthsAfter state.1 table op state.2)

/-- `service_get_prefix_bits` has eight bits for its answer. -/
def TableOp.FitsByte : TableOp → Prop
  | .add _ prefixBits _ => prefixBits ≤ 255
  | .modify _ prefixBits _ => prefixBits ≤ 255
  | .del _ prefixBits => prefixBits ≤ 255
  | .delTarget _ prefixBits _ _ _ => prefixBits ≤ 255
  | _ => True

theorem TableOp.inserts_le {op : TableOp} (fits : op.FitsByte) {srvid : ServiceId} {bits : Nat}
    (inserts : op.inserts = some (srvid, bits)) : bits ≤ 255 := by
  cases op with
  | add id prefixBits args =>
    cases id with
    | none => cases inserts
    | some id =>
      cases inserts
      unfold storedBits
      split
      · exact Nat.zero_le _
      · exact fits
  | modify | del | delTarget | entryRemoveTarget | delTargetAll | delDevAll =>
      cases inserts

/-- Every entry reports the first bits of its id, followed by zeros, and
their number. -/
def ReadsBack (table : ServiceTable) (born : Births) : Prop :=
  ∀ s se, entryAt table s = some se →
    ∃ srvid bits id count, born s = some (srvid, bits) ∧ serviceGetId table se = .ok id ∧
        id.length = serviceIdSize ∧
        takeBits id 256 = takeBits srvid.sid bits ++ List.replicate (256 - bits) false ∧
        serviceGetPrefixBits table se = .ok count ∧ count.toNat = bits

def BornInPlace (m : BitMap ServiceEntry) (born : Births) : Prop :=
  ∀ s ∈ m, ∃ srvid bits, born s = some (srvid, bits) ∧ bits ≤ 255 ∧ s = prefixOf srvid bits

section ReadBack

variable {table : ServiceTable} {L : Layout} {m m' : BitMap ServiceEntry}

/-- The id of an entry can be read; the number of its bits is one byte. -/
theorem TableRep.getId_of_le (rep : TableRep table L m) {s : List Bool} {se : ServiceEntry}
    (held : m.lookup s = some se) (short : s.length ≤ 256) :
    ∃ id, serviceGetId table se = .ok id ∧ id.length = serviceIdSize ∧
        takeBits id 256 = s ++ List.replicate (256 - s.length) false ∧
        serviceGetPrefixBits table se = .ok (UInt8.ofNat s.length) := by
  obtain ⟨p, placed⟩ := rep.placed held
  obtain ⟨node, live, ok⟩ := rep.tree.node s p placed
  have here : se.node = some p := (rep.node s se held).trans placed
  have size : node.prefixBytes.length = prefixSize s.length := by
    rw [ok.bytes, packBits_length, prefixSize_eq]
  have fits : prefixSize s.length ≤ serviceIdSize := by
    rw [prefixSize_eq, serviceIdSize]
    omega
  refine ⟨packBits s ++ List.replicate (serviceIdSize - prefixSize s.length) 0, ?_, ?_, ?_, ?_⟩
  · have inside : ¬ (node.prefixBytes.length < prefixSize s.length ∨
          serviceIdSize < prefixSize s.length) := by
      omega
    simp only [serviceGetId, here, Heap.read_of_live live, ok_bind, ok.depth, if_neg inside]
    rw [← size, List.take_length, ok.bytes]
    rfl
  · rw [List.length_append, List.length_replicate, ← ok.bytes]
    omega
  · rw [← takeBits_packBits_pad s (by omega)]
    apply List.map_congr_left
    intro i _
    exact bitAt_append_zeros _ _ i
  · simp only [serviceGetPrefixBits, here, Heap.read_of_live live, ok_bind, ok.depth, pure_eq_ok]

private theorem TableRep.getId (rep : TableRep table L m) {s : List Bool} {se : ServiceEntry}
    (held : m.lookup s = some se) (short : s.length ≤ 255) :
    ∃ id count, serviceGetId table se = .ok id ∧ id.length = serviceIdSize ∧
        takeBits id 256 = s ++ List.replicate (256 - s.length) false ∧
        serviceGetPrefixBits table se = .ok count ∧ count.toNat = s.length := by
  obtain ⟨id, read, length, bits, count⟩ := rep.getId_of_le held (by omega)
  refine ⟨id, UInt8.ofNat s.length, read, length, bits, count, ?_⟩
  rw [UInt8.toNat_ofNat_of_lt']
  change s.length < 2 ^ 8
  omega

private theorem TableRep.readsBack (rep : TableRep table L m) {born : Births}
    (inPlace : BornInPlace m born) : ReadsBack table born := by
  intro s se active
  rw [rep.entryAt_eq] at active
  obtain ⟨srvid, bits, birth, small, same⟩ := inPlace s (Finmap.mem_of_lookup_eq_some active)
  have length : s.length = bits := by
    rw [same]
    exact takeBits_length _ _
  obtain ⟨id, count, read, size, isPadded, readBits, counted⟩ := rep.getId active (by omega)
  rw [length] at isPadded counted
  rw [same] at isPadded
  exact ⟨srvid, bits, id, count, birth, read, size, isPadded, readBits, counted⟩

/-- The entries keep their births, and a new one is born where it lies. -/
theorem TableEffect.bornInPlace {tree : Bst ServiceEntry} {op : TableOp}
    (effect : TableEffect tree m op m') (fits : op.FitsByte)
    {born born' : Births} (inPlace : BornInPlace m born)
    (birth : ∀ s ∈ m', born' s = if s ∈ m then born s else op.inserts) :
    BornInPlace m' born' := by
  intro s present
  rw [birth s present]
  by_cases before : s ∈ m
  · rw [if_pos before]
    exact inPlace s before
  · rw [if_neg before]
    rcases effect.domain present with old | ⟨srvid, bits, inserts, same⟩
    · exact absurd old before
    · exact ⟨srvid, bits, inserts, TableOp.inserts_le fits inserts, same⟩

/-- One call keeps every entry under the prefix it was born with. -/
theorem bornStep_keeps (state : ServiceTable × Births) (op : TableOp)
    (kept : ∃ L m, TableRep state.1 L m ∧ m.keys.card < 2 ^ 32 ∧ BornInPlace m state.2)
    (allowed : TableAllowed state.1 op ∧ op.FitsByte ∧ HasTableRoom state.1 op) :
    ∃ state', bornStep state op = .ok state' ∧
      ∃ L m, TableRep state'.1 L m ∧ m.keys.card < 2 ^ 32 ∧ BornInPlace m state'.2 := by
  obtain ⟨table, born⟩ := state
  obtain ⟨L, m, rep, few, inPlace⟩ := kept
  obtain ⟨callable, fits, room⟩ := allowed
  obtain ⟨table', L', m', run, rep', effect⟩ := rep.step op callable
  refine ⟨(table', birthsAfter table table' op born), ?_, L', m', rep', effect.card_lt rep few room,
    ?_⟩
  · simp only [bornStep, run, ok_bind, pure_eq_ok]
  · apply effect.bornInPlace fits inPlace
    intro s present
    simp only [birthsAfter, rep.entryAt_eq, rep'.entryAt_eq, Finmap.lookup_isSome, if_pos present]

end ReadBack

/-- Every history with ids of at most 255 bits that does not add an entry to
`2 ^ 32 - 1` of them leaves a trie in order, from which every entry's id can
be read back. -/
theorem tableHistory_readsBack (history : List TableOp)
    (admitted :
      Admits bornStep
        (fun state op =>
          TableAllowed state.1 op ∧ op.FitsByte ∧ HasTableRoom state.1 op)
        (serviceTableInit, fun _ => none) history) :
    ∃ table born, runAll bornStep (serviceTableInit, fun _ => none) history = .ok (table, born) ∧
        ReadsBack table born ∧ TrieSound table.tree := by
  have start : BornInPlace (∅ : BitMap ServiceEntry) fun _ => none := by
    intro s present
    exact absurd present Finmap.notMem_empty
  obtain ⟨⟨table, born⟩, run, L, m, rep, few, inPlace⟩ := runAll_keeps bornStep_keeps
      ⟨_, _, serviceTableInit_rep, by decide, start⟩ admitted
  exact ⟨table, born, run, rep.readsBack inPlace, rep.tree.trieSound few⟩

def sampleId : ServiceId where
  sid := 0xa0 :: List.replicate 31 0
  size := rfl

/-- A prefix of three bits, the whole id below it, and the prefix deleted
again. -/
theorem tableHistory_readsBack_sample : ∃ table born,
      runAll bornStep (serviceTableInit, fun _ => none)
          [.add (some sampleId) 3 (forwardRule [10, 0, 0, 1] 1 1 "eth0"),
            .add (some sampleId) 9 (forwardRule [10, 0, 0, 1] 1 1 "eth0"),
            .delTarget sampleId 3 .forward (some ⟨0, [10, 0, 0, 1]⟩) 4] =
          .ok (table, born) ∧ ReadsBack table born ∧ TrieSound table.tree := by
  refine tableHistory_readsBack _ ?_
  refine ⟨⟨.addForward rfl 1 1 "eth0" (by decide), (by decide : 3 ≤ 255), fun _ => by decide⟩, ?_⟩
  rintro _ ⟨rfl⟩
  refine ⟨⟨.addForward rfl 1 1 "eth0" (by decide), (by decide : 9 ≤ 255), fun _ => by decide⟩, ?_⟩
  rintro _ ⟨rfl⟩
  refine ⟨⟨⟨⟨by decide, Or.inr ⟨rfl, _, rfl, rfl⟩⟩, fun lonely => absurd lonely (by decide),
    trivial⟩,
    (by decide : 3 ≤ 255), fun _ => by decide⟩, ?_⟩
  intro _ _
  trivial

/-! ## Where the counter wraps -/

/-- An id whose first four bytes are a number. Its last byte keeps it apart
from the default service. -/
def wordId (i : Nat) : ServiceId where
  sid := packBits (wordBits i) ++ (List.replicate 27 0 ++ [1])
  size := by simp [wordBits, serviceIdSize]

def addWord (i : Nat) : TableOp := .add (some (wordId i)) 32 (forwardRule [10, 0, 0, 1] 1 1 "eth0")

@[irreducible]
def fillTable (n : Nat) : List TableOp := (List.range n).map addWord

private theorem fillTable_zero : fillTable 0 = [] := by
  simp [fillTable]

private theorem fillTable_succ (n : Nat) : fillTable (n + 1) = fillTable n ++ [addWord n] := by
  simp [fillTable, List.range_succ]

private theorem storedPrefix_wordId (i : Nat) : storedPrefix (wordId i) 32 = wordBits i := by
  have notDefault : (wordId i).sid ≠ defaultService.sid := by
    intro same
    have last := congrArg List.getLast? same
    simp [wordId, defaultService, serviceIdSize] at last
  unfold storedPrefix storedBits prefixOf
  rw [if_neg notDefault, wordId, takeBits_append _ _ (by simp [wordBits]), takeBits_wordBits]

private theorem addWord_allowed (table : ServiceTable) (i : Nat) : TableAllowed table (addWord i) :=
  .addForward rfl 1 1 "eth0" (by decide)

private theorem TableRep.addWord {table : ServiceTable} {L : Layout} {m : BitMap ServiceEntry}
    (rep : TableRep table L m) {n : Nat} (words : Words n m)
    (small : n < 2 ^ 32) :
    ∃ table' L' m', tableStep table (addWord n) = .ok table' ∧
      TableRep table' L' m' ∧ Words (n + 1) m' := by
  obtain ⟨table', L', m', run, rep', effect⟩ := rep.step _ (addWord_allowed table n)
  refine ⟨table', L', m', run, rep', ?_⟩
  have absent := words.absent small
  have room : m.keys.card < 2 ^ 32 := by
    rw [words.card]
    exact small
  cases effect with
  | add srvid prefixBits args ret m' effect =>
    rw [storedPrefix_wordId] at effect
    cases effect with
    | refused ret other reason =>
      rcases reason with wrong | ⟨se, held, _⟩
      · cases wrong
      · rw [absent] at held
        cases held
    | extended se valid held =>
      rw [absent] at held
      cases held
    | created p =>
      rw [rep.tree.survives_of_room room]
      exact words.insert small _

private theorem fillTable_spec (n : Nat) (small : n ≤ 2 ^ 32) :
    Admits tableStep TableAllowed serviceTableInit (fillTable n) ∧
      ∃ table L m, runAll tableStep serviceTableInit (fillTable n) = .ok table ∧
          TableRep table L m ∧ Words n m := by
  induction n with
  | zero =>
    rw [fillTable_zero]
    exact ⟨trivial, serviceTableInit, Layout.empty, ∅, rfl, serviceTableInit_rep, words_empty⟩
  | succ n ih =>
    obtain ⟨admitted, table, L, m, run, rep, words⟩ := ih (by omega)
    obtain ⟨table', L', m', stepped, rep', words'⟩ := rep.addWord words (by omega)
    rw [fillTable_succ]
    refine ⟨admits_append admitted ?_, table', L', m', ?_, rep', words'⟩
    · intro state _
      exact ⟨addWord_allowed state n, fun _ _ => trivial⟩
    · rw [runAll_append, run]
      change runAll tableStep table [Serval.addWord n] = _
      simp only [runAll, stepped, ok_bind]

/-- After `2 ^ 32` additions every number has its entry, and the counter of
entries reads zero. -/
theorem fillTable_uncounted : Admits tableStep TableAllowed serviceTableInit (fillTable (2 ^ 32)) ∧
      ∃ table, runAll tableStep serviceTableInit (fillTable (2 ^ 32)) = .ok table ∧
          table.tree.entries = 0 ∧ (∀ i < 2 ^ 32, table.tree.Active (wordBits i)) ∧
          ¬ TrieSound table.tree := by
  obtain ⟨admitted, table, L, m, run, rep, words⟩ := fillTable_spec (2 ^ 32) le_rfl
  have zero : table.tree.entries = 0 := by
    rw [rep.tree.entries, words.card]
    rfl
  have active : ∀ i < 2 ^ 32, table.tree.Active (wordBits i) := by
    intro i below
    rw [rep.tree.active_iff, words.member]
    exact ⟨i, below, rfl⟩
  refine ⟨admitted, table, run, zero, active, ?_⟩
  intro sound
  obtain ⟨keys, member, counted⟩ := sound.counted
  rw [zero] at counted
  have empty : keys = ∅ := Finset.card_eq_zero.mp counted.symm
  have present := (member _).mpr (active 0 (by decide))
  rw [empty] at present
  exact absurd present (Finset.notMem_empty _)

end Serval
