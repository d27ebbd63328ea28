import Serval.Support.Run
import Serval.Bst.Release
import Serval.Bst.Insert

/-!
# Histories of the trie

A history inserts, removes and releases; beside the trie runs the finite map
that it is meant to implement. The trie agrees with the map as long as the
32-bit entry counter does not wrap: an insertion that finds the counter at
zero starts over with a new root.
-/

namespace Serval

open Serval.Support

variable {α : Type}

/-- Follow a bit string down from a node, right for a one bit. -/
def walk (heap : Heap (BstNode α)) : Ptr → List Bool → Option Ptr
  | p, [] => some p
  | p, b :: rest =>
    match heap.get? p with
    | some node =>
      match (if b then node.right else node.left) with
      | some child => walk heap child rest
      | none => none
    | none => none

def Bst.nodeAt (tree : Bst α) (s : List Bool) : Option Ptr :=
  match tree.root with
  | some root => walk tree.heap root s
  | none => none

variable {L : Layout} {m : BitMap α}

theorem Layout.vacant_append {s : List Bool} (vacant : L.place s = none)
    (rest : List Bool) : L.place (s ++ rest) = none := by
  cases below : L.place (s ++ rest) with
  | none => rfl
  | some p =>
    obtain ⟨q, above⟩ := Layout.place_of_prefix (List.prefix_append s rest) below
    rw [vacant] at above
    cases above

theorem Stored.walk_eq {heap : Heap (BstNode α)} (stored : Stored heap L m) (rest : List Bool) :
    ∀ {s : List Bool} {p : Ptr}, L.place s = some p → walk heap p rest = L.place (s ++ rest) := by
  induction rest with
  | nil =>
    intro s p placed
    rw [List.append_nil, placed]
    rfl
  | cons b rest ih =>
    intro s p placed
    obtain ⟨node, live, ok⟩ := stored.node s p placed
    have split : s ++ b :: rest = (s ++ [b]) ++ rest := by simp
    simp only [walk, live, ok.child b]
    rw [split]
    cases below : L.place (s ++ [b]) with
    | none => exact (Layout.vacant_append below rest).symm
    | some child => exact ih below

variable {tree : Bst α}

theorem Represents.nodeAt_eq (rep : Represents tree L m) (s : List Bool) :
    tree.nodeAt s = L.place s := by
  unfold Bst.nodeAt
  rw [rep.root]
  cases root : L.place [] with
  | none => exact (Layout.vacant_append root s).symm
  | some p => exact rep.walk_eq s root

/-! ## What a lookup must return -/

def MatchesAt (tree : Bst α) (matchFn : Option (BstNode α → Bool)) (s : List Bool) :
    Prop :=
  ∃ p node, tree.nodeAt s = some p ∧ tree.heap.get? p = some node ∧ accepts matchFn node = true

/-- Lookups in the trie are longest-prefix lookups in the map. -/
structure FindsLongest (tree : Bst α) (m : BitMap α) : Prop where
  held :
    ∀ s value, m.lookup s = some value →
      ∃ p node, tree.nodeAt s = some p ∧ tree.heap.get? p = some node ∧ node.priv = some value
  finds :
    ∀ (key : List UInt8) (bits : Nat)
        (matchFn : Option (BstNode α → Bool)), bits ≤ 8 * key.length →
      ∃ result, bstFindLongestPrefixMatch tree key bits matchFn = .ok result ∧
          (∀ p, result = some p ↔
            ∃ s, IsLongest (fun t => t ∈ m ∧ MatchesAt tree matchFn t)
                (takeBits key bits) s ∧ tree.nodeAt s = some p) ∧
          (result = none ↔ ¬ ∃ s, s <+: takeBits key bits ∧ s ∈ m ∧ MatchesAt tree matchFn s)

theorem Represents.hit_iff_matches (rep : Represents tree L m)
    (matchFn : Option (BstNode α → Bool)) (s : List Bool) :
    Hit tree.heap L matchFn s ↔ s ∈ m ∧ MatchesAt tree matchFn s := by
  unfold Hit MatchesAt
  rw [rep.nodeAt_eq]
  constructor
  · rintro ⟨p, node, placed, live, accepted⟩
    obtain ⟨active, matching⟩ := Bool.and_eq_true_iff.mp accepted
    refine ⟨?_, p, node, placed, live, matching⟩
    apply (rep.hit_none_iff s).mp
    exact ⟨p, node, placed, live, by simp [accepts, active]⟩
  · rintro ⟨member, p, node, placed, live, matching⟩
    refine ⟨p, node, placed, live, ?_⟩
    have active := (hit_iff none placed live).mp ((rep.hit_none_iff s).mpr member)
    simp_all [accepts]

theorem Represents.findsLongest (rep : Represents tree L m) : FindsLongest tree m where
  held := by
    intro s value found
    obtain ⟨p, placed⟩ := rep.support s value found
    obtain ⟨node, live, ok⟩ := rep.node s p placed
    exact ⟨p, node, (rep.nodeAt_eq s).trans placed, live, ok.priv.trans found⟩
  finds := by
    intro key bits matchFn long
    obtain ⟨result, run, longest⟩ := rep.find_match long matchFn
    refine ⟨result, run, ?_⟩
    have none_of_quiet (quiet : ∀ i, 0 ≤ i → i ≤ bits →
          ¬ Hit tree.heap L matchFn (takeBits key i)) :
        ¬ ∃ s, s <+: takeBits key bits ∧ s ∈ m ∧ MatchesAt tree matchFn s := by
      rintro ⟨s, begins, hit⟩
      obtain ⟨short, same⟩ := eq_takeBits_of_prefix begins
      rw [same, ← rep.hit_iff_matches] at hit
      exact quiet s.length (Nat.zero_le _) short hit
    rcases longest with ⟨rfl, quiet⟩ | ⟨j, _, high, hit, found, quiet⟩
    · have absent := none_of_quiet quiet
      refine ⟨?_, iff_of_true rfl absent⟩
      intro p
      constructor
      · intro impossible
        cases impossible
      · rintro ⟨s, isLongest, _⟩
        exact absurd ⟨s, isLongest.begins, isLongest.here⟩ absent
    · have isLongest : IsLongest (fun t => t ∈ m ∧ MatchesAt tree matchFn t)
            (takeBits key bits) (takeBits key j) :=
        { begins := takeBits_isPrefixOf key high
          here := (rep.hit_iff_matches matchFn _).mp hit
          longest := by
            intro t begins here
            obtain ⟨short, same⟩ := eq_takeBits_of_prefix begins
            rw [same, ← rep.hit_iff_matches] at here
            by_contra longer
            rw [takeBits_length] at longer
            exact quiet t.length (by omega) short here }
      rw [found]
      constructor
      · intro p
        constructor
        · intro placed
          exact ⟨_, isLongest, (rep.nodeAt_eq _).trans placed⟩
        · rintro ⟨s, other, placed⟩
          rw [isLongest.unique other, ← rep.nodeAt_eq, placed]
      · obtain ⟨p, _, placed, _⟩ := hit
        rw [placed]
        refine iff_of_false (by simp) ?_
        exact not_not_intro ⟨_, isLongest.begins, isLongest.here⟩

/-- One call. `insert` passes a non-null `private`; `release` is given the
node that the bit string leads to. -/
inductive BstOp (α : Type) where
  | insert (ops : Option (BstNodeOps α)) (value : α) (key : List UInt8) (bits : Nat)
  | remove (key : List UInt8) (bits : Nat)
  | release (s : List Bool)

def bstStep (tree : Bst α) : BstOp α → Except Fault (Bst α)
  | .insert ops value key bits => do
    let (_, tree) ← bstInsertPrefix tree ops (some value) key bits fun _ => true
    return tree
  | .remove key bits => do
    let (_, tree) ← bstRemovePrefix tree key bits
    return tree
  | .release s =>
    match tree.nodeAt s with
    | some n => bstNodeRelease tree n
    | none => .error .null

def mapStep (m : BitMap α) : BstOp α → BitMap α
  | .insert _ value key bits =>
    if (m.lookup (takeBits key bits)).isSome then m
    else m.insert (takeBits key bits) value
  | .remove key bits => m.erase (takeBits key bits)
  | .release s => m.erase s

abbrev Tracked (α : Type) := Bst α × BitMap α

def trackedStep (state : Tracked α) (op : BstOp α) : Except Fault (Tracked α) := do
  let tree ← bstStep state.1 op
  return (tree, mapStep state.2 op)

/-- What a caller promises: keys are long enough, `init` succeeds, and a
released node is active and not a root without children. -/
def Callable (tree : Bst α) : BstOp α → Prop
  | .insert ops value key bits =>
    bits ≤ 8 * key.length ∧
      ∀ f, ops.bind (·.init) = some f → 0 ≤ f value
  | .remove key bits => bits ≤ 8 * key.length
  | .release s =>
    ∃ p node, tree.nodeAt s = some p ∧ tree.heap.get? p = some node ∧ node.priv.isSome = true ∧
      (s = [] → node.left.isSome = true ∨ node.right.isSome = true)

/-- The counter of nodes does not wrap. -/
def HasRoom (m : BitMap α) : BstOp α → Prop
  | .insert .. => m.keys.card < 2 ^ 32
  | .remove .. => True
  | .release _ => True

/-- Below the wrap of the counter nothing is lost by an insertion. -/
theorem Represents.survives_of_room (rep : Represents tree L m)
    (room : m.keys.card < 2 ^ 32) : survives tree m = m := by
  unfold survives
  by_cases zero : tree.entries = 0
  · have none : m.keys.card = 0 := by
      have counted := congrArg UInt32.toNat (rep.entries.symm.trans zero)
      rw [UInt32.toNat_ofNat_of_lt' room] at counted
      exact counted
    rw [if_pos zero, (BitMap.card_keys_eq_zero_iff m).mp none]
  · rw [if_neg zero]

theorem Represents.insert_step (rep : Represents tree L m)
    (ops : Option (BstNodeOps α)) (value : α) {key : List UInt8} {bits : Nat}
    (long : bits ≤ 8 * key.length)
    (initOk : ∀ f, ops.bind (·.init) = some f → 0 ≤ f value) :
    ∃ tree' L', bstStep tree (.insert ops value key bits) = .ok tree' ∧
      Represents tree' L'
        (mapStep (survives tree m) (.insert ops value key bits)) := by
  cases held : (survives tree m).lookup (takeBits key bits) with
  | none =>
    obtain ⟨p, tree', L', run, rep', _⟩ :=
      rep.insert_free long held ops value initOk (fun _ => true)
        fun _ => rfl
    refine ⟨tree', L', ?_, ?_⟩
    · simp only [bstStep, run, ok_bind, pure_eq_ok]
    · simpa [mapStep, held] using rep'
  | some old =>
    have occupied : survives tree m = m := by
      unfold survives at held ⊢
      split at held
      · simp at held
      · rw [if_neg ‹_›]
    have run := rep.insert_taken long held ops (some value) fun _ => true
    refine ⟨tree, L, ?_, ?_⟩
    · simp only [bstStep, run, ok_bind, pure_eq_ok]
    · simp only [mapStep, held, Option.isSome_some, if_true]
      rw [occupied]
      exact rep

theorem trackedStep_keeps (state : Tracked α) (op : BstOp α)
    (rep : ∃ L, Represents state.1 L state.2)
    (allowed : Callable state.1 op ∧ HasRoom state.2 op) :
    ∃ state', trackedStep state op = .ok state' ∧
      ∃ L, Represents state'.1 L state'.2 := by
  obtain ⟨L, rep⟩ := rep
  obtain ⟨callable, room⟩ := allowed
  cases op with
  | insert ops value key bits =>
    obtain ⟨tree', L', run, rep'⟩ := rep.insert_step ops value callable.1 callable.2
    rw [rep.survives_of_room room] at rep'
    refine ⟨(tree', _), ?_, L', rep'⟩
    simp only [trackedStep, run, ok_bind, pure_eq_ok]
    rfl
  | remove key bits =>
    obtain ⟨tree', run, rep'⟩ := rep.remove callable
    refine ⟨(tree', _), ?_, L, rep'⟩
    simp only [trackedStep, bstStep, run, ok_bind, pure_eq_ok]
    rfl
  | release s =>
    obtain ⟨p, node, found, live, _, childful⟩ := callable
    have placed : L.place s = some p := (rep.nodeAt_eq s).symm.trans found
    have notLonely : s ≠ [] ∨ ∃ b q, L.place [b] = some q := by
      by_cases atRoot : s = []
      · subst atRoot
        obtain ⟨same, sameLive, ok⟩ := rep.node [] p placed
        rw [live] at sameLive
        cases sameLive
        right
        rcases childful rfl with left | right
        · rw [ok.left] at left
          exact ⟨false, Option.isSome_iff_exists.mp left⟩
        · rw [ok.right] at right
          exact ⟨true, Option.isSome_iff_exists.mp right⟩
      · exact Or.inl atRoot
    obtain ⟨tree', L', run, rep', _⟩ := rep.release placed notLonely
    refine ⟨(tree', _), ?_, L', rep'⟩
    simp only [trackedStep, bstStep, found, run, ok_bind, pure_eq_ok]
    rfl

theorem history_represents {history : List (BstOp α)}
    (admitted :
      Admits trackedStep
        (fun state op => Callable state.1 op ∧ HasRoom state.2 op)
        (bstInit, ∅) history) :
    ∃ state, runAll trackedStep (bstInit, ∅) history = .ok state ∧
      ∃ L, Represents state.1 L state.2 :=
  runAll_keeps trackedStep_keeps
    ⟨Layout.empty, bstInit_represents⟩ admitted

/-- No history faults, and after it every lookup is a longest-prefix lookup
in the map, when insertions meet fewer than `2 ^ 32` keys. -/
theorem history_findsLongest (history : List (BstOp α))
    (admitted :
      Admits trackedStep
        (fun state op => Callable state.1 op ∧ HasRoom state.2 op)
        (bstInit, ∅) history) :
    ∃ tree m, runAll trackedStep (bstInit, ∅) history = .ok (tree, m) ∧ FindsLongest tree m := by
  obtain ⟨⟨tree, m⟩, run, L, rep⟩ := history_represents admitted
  exact ⟨tree, m, run, rep.findsLongest⟩

/-- A default route, a host below it, and the host released again. -/
theorem history_findsLongest_release : ∃ tree m, runAll trackedStep (bstInit, ∅)
          [.insert none 7 [] 0, .insert none 8 [0x80] 3, .release [true, false, false]] = .ok (tree,
            m) ∧ FindsLongest tree m := by
  refine history_findsLongest _ ?_
  refine ⟨⟨⟨by decide, by simp⟩, (by decide : 0 < 2 ^ 32)⟩, ?_⟩
  rintro _ ⟨rfl⟩
  refine ⟨⟨⟨by decide, by simp⟩, (by decide : 1 < 2 ^ 32)⟩, ?_⟩
  rintro _ ⟨rfl⟩
  refine ⟨⟨⟨3, _, rfl, rfl, rfl, by simp⟩, trivial⟩, ?_⟩
  intro _ _
  trivial

/-! ## Where the counter wraps -/

def wordBits (i : Nat) : List Bool := (List.range 32).map fun k => i.testBit (31 - k)

theorem wordBits_injective {i j : Nat} (smallLeft : i < 2 ^ 32) (smallRight : j < 2 ^ 32)
    (same : wordBits i = wordBits j) : i = j := by
  apply Nat.eq_of_testBit_eq
  intro k
  by_cases low : k < 32
  · have here := List.map_inj_left.mp same (31 - k) (by
      rw [List.mem_range]
      omega)
    simpa [show 31 - (31 - k) = k by omega] using here
  · have high : 2 ^ 32 ≤ 2 ^ k := Nat.pow_le_pow_right (by decide) (by omega)
    rw [Nat.testBit_lt_two_pow (by omega), Nat.testBit_lt_two_pow (by omega)]

private def insertWord (i : Nat) : BstOp Nat := .insert none i (packBits (wordBits i)) 32

@[irreducible]
def fill (n : Nat) : List (BstOp Nat) := (List.range n).map insertWord

structure Words (n : Nat) (m : BitMap α) : Prop where
  card : m.keys.card = n
  member : ∀ s, s ∈ m ↔ ∃ i, i < n ∧ s = wordBits i

theorem words_empty : Words 0 (∅ : BitMap α) where
  card := by simp
  member := by simp [Finmap.notMem_empty]

theorem Words.absent {n : Nat} (words : Words n m) (small : n < 2 ^ 32) :
    m.lookup (wordBits n) = none := by
  apply Finmap.lookup_eq_none.mpr
  intro present
  obtain ⟨i, below, same⟩ := (words.member _).mp present
  have equal := wordBits_injective small (below.trans small) same
  omega

theorem Words.insert {n : Nat} {m : BitMap α} (words : Words n m) (small : n < 2 ^ 32)
    (value : α) : Words (n + 1) (m.insert (wordBits n) value) where
  card := by
    rw [BitMap.card_keys_insert value (words.absent small), words.card]
  member := by
    intro s
    rw [Finmap.mem_insert, words.member]
    constructor
    · rintro (rfl | ⟨i, below, rfl⟩)
      · exact ⟨n, Nat.lt_succ_self n, rfl⟩
      · exact ⟨i, below.trans (Nat.lt_succ_self n), rfl⟩
    · rintro ⟨i, below, rfl⟩
      rcases Nat.lt_succ_iff_lt_or_eq.mp below with earlier | rfl
      · exact Or.inr ⟨i, earlier, rfl⟩
      · exact Or.inl rfl

structure Filled (n : Nat) (m : BitMap Nat) : Prop extends Words n m where
  value : ∀ i, i < n → m.lookup (wordBits i) = some i

theorem fill_zero : fill 0 = [] := by
  simp [fill]

theorem fill_succ (n : Nat) : fill (n + 1) = fill n ++ [insertWord n] := by
  simp [fill, List.range_succ]

theorem takeBits_wordBits (i : Nat) : takeBits (packBits (wordBits i)) 32 = wordBits i := by
  have long : (wordBits i).length = 32 := by simp [wordBits]
  rw [← long, takeBits_packBits]

theorem Filled.insert {n : Nat} {m : BitMap Nat} (filled : Filled n m) (small : n < 2 ^ 32) :
    Filled (n + 1) (mapStep m (insertWord n)) := by
  have absent := filled.absent small
  have stepped : mapStep m (insertWord n) = m.insert (wordBits n) n := by
    unfold mapStep insertWord
    simp only
    rw [takeBits_wordBits, absent]
    rfl
  rw [stepped]
  exact {
    toWords := filled.toWords.insert small n
    value := by
      intro i below
      rw [BitMap.lookup_insert_eq]
      rcases Nat.lt_succ_iff_lt_or_eq.mp below with earlier | rfl
      · have different : wordBits i ≠ wordBits n := by
          intro same
          have equal := wordBits_injective (earlier.trans small) small same
          omega
        rw [if_neg different, filled.value i earlier]
      · rw [if_pos rfl] }

theorem callable_insertWord (tree : Bst Nat) (i : Nat) : Callable tree (insertWord i) := by
  constructor
  · simp [wordBits]
  · simp

theorem fill_admitted (n : Nat) (small : n ≤ 2 ^ 32) : Admits trackedStep
        (fun state op => Callable state.1 op ∧ HasRoom state.2 op)
        (bstInit, ∅) (fill n) ∧
      ∃ tree m L, runAll trackedStep (bstInit, ∅) (fill n) =
          .ok (tree, m) ∧ Represents tree L m ∧ Filled n m := by
  induction n with
  | zero =>
    rw [fill_zero]
    refine ⟨trivial, bstInit, ∅, Layout.empty, rfl, bstInit_represents, ?_⟩
    exact {
      toWords := words_empty
      value := by simp }
  | succ n ih =>
    obtain ⟨admitted, tree, m, L, run, rep, filled⟩ := ih (by omega)
    have allowed : Callable tree (insertWord n) ∧ HasRoom m (insertWord n) := by
      refine ⟨callable_insertWord tree n, ?_⟩
      change m.keys.card < 2 ^ 32
      rw [filled.card]
      omega
    obtain ⟨⟨tree', m'⟩, stepped, L', rep'⟩ :=
      trackedStep_keeps (tree, m) (insertWord n) ⟨L, rep⟩ allowed
    have map : m' = mapStep m (insertWord n) := by
      obtain ⟨after, _, same⟩ := of_bind stepped
      cases same
      rfl
    rw [fill_succ]
    refine ⟨admits_append admitted ?_, tree', m', L', ?_, rep', ?_⟩
    · intro state ran
      rw [run] at ran
      cases ran
      exact ⟨allowed, fun _ _ => trivial⟩
    · rw [runAll_append, run]
      change runAll trackedStep (tree, m) [insertWord n] = _
      simp only [runAll, stepped, ok_bind]
    · rw [map]
      exact filled.insert (by omega)

def overflowHistory : List (BstOp Nat) := fill (2 ^ 32) ++ [.insert none 0 [] 0]

/-- After `2 ^ 32` insertions the counter reads zero. The next insertion
makes a new root, and the numbers can no longer be found. -/
theorem overflow_forgets : Admits trackedStep (fun state op => Callable state.1 op)
        (bstInit, ∅) overflowHistory ∧
      ∃ tree m root, runAll trackedStep (bstInit, ∅) overflowHistory = .ok (tree, m) ∧
          m.lookup (wordBits 5) = some 5 ∧
          bstFindLongestPrefixMatch tree (packBits (wordBits 5)) 32 none = .ok (some root) ∧
          tree.nodeAt [] = some root ∧ ¬ FindsLongest tree m := by
  obtain ⟨admitted, full, m, L, run, rep, filled⟩ := fill_admitted (2 ^ 32) le_rfl
  have callable : Callable full (.insert none 0 [] 0 : BstOp Nat) := ⟨le_rfl, by simp⟩
  have lost : survives full m = ∅ := by
    have zero : full.entries = 0 := by
      rw [rep.entries, filled.card]
      rfl
    exact if_pos zero
  obtain ⟨tree, L', stepped, rep'⟩ := rep.insert_step none 0 callable.1 callable.2
  have left : mapStep (∅ : BitMap Nat) (.insert none 0 [] 0) = (∅ : BitMap Nat).insert [] 0 := rfl
  rw [lost, left] at rep'
  have only (s : List Bool) : s ∈ (∅ : BitMap Nat).insert [] 0 ↔ s = [] := by
    simp [Finmap.mem_insert, Finmap.notMem_empty]
  have notRoot : wordBits 5 ≠ [] := by decide
  have kept : (mapStep m (.insert none 0 [] 0)).lookup (wordBits 5) =
      some 5 := by
    have absent : m.lookup [] = none := by
      apply Finmap.lookup_eq_none.mpr
      intro member
      obtain ⟨i, _, same⟩ := (filled.member []).mp member
      simp [wordBits] at same
    simp only [mapStep, takeBits_zero, absent, Option.isSome_none, Bool.false_eq_true, if_false]
    rw [Finmap.lookup_insert_of_ne _ notRoot]
    exact filled.value 5 (by decide)
  have found : ∃ root, bstFindLongestPrefixMatch tree (packBits (wordBits 5)) 32
          none = .ok (some root) ∧ L'.place [] = some root := by
    have long : 32 ≤ 8 * (packBits (wordBits 5)).length := by simp [wordBits]
    rcases rep'.find long with
      ⟨_, absent⟩ | ⟨s, p, run', placed, isLongest⟩
    · exact absurd ((only []).mpr rfl) (absent [] List.nil_prefix)
    · rw [(only s).mp isLongest.here] at placed
      exact ⟨p, run', placed⟩
  obtain ⟨root, run', placed⟩ := found
  refine ⟨?_, tree, mapStep m (.insert none 0 [] 0), root, ?_, kept, run',
    (rep'.nodeAt_eq []).trans placed, ?_⟩
  · apply admits_append (admitted.mono fun _ _ allowed => allowed.1)
    intro state ran
    rw [run] at ran
    cases ran
    exact ⟨callable, fun _ _ => trivial⟩
  · rw [overflowHistory, runAll_append, run]
    change runAll trackedStep (full, m) [.insert none 0 [] 0] = _
    simp only [runAll, trackedStep, stepped, ok_bind, pure_eq_ok]
  · intro finds
    obtain ⟨p, node, at_p, live, priv⟩ := finds.held _ _ kept
    rw [rep'.nodeAt_eq] at at_p
    obtain ⟨same, sameLive, ok⟩ := rep'.node _ p at_p
    rw [live] at sameLive
    cases sameLive
    rw [ok.priv, Finmap.lookup_insert_of_ne _ notRoot] at priv
    simp at priv

end Serval
