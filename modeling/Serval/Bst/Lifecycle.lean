import Serval.Bst.History
import Serval.Bst.Print

/-!
# The end of a trie

After every history the nodes below the root form a tree. `bst_destroy` frees
all of them while the trie counts an entry, and none of them otherwise: a trie
that has lost its last entry keeps its nodes.
-/

namespace Serval

open Serval.Support

variable {α : Type}

def bstDestroy (rounds : Nat) (tree : Bst α) : Except Fault (Bst α) :=
  if tree.entries > 0 then
    match tree.root with
    | none => .error .null
    | some root => do
      let tree ← bstDestroySubtree root rounds tree root
      return { tree with root := none, entries := 0 }
  else return tree

variable {heap : Heap (BstNode α)} {L : Layout} {m : BitMap α} {tree : Bst α} {s : List Bool}
    {p parent : Ptr}

/-- Each beginning of a placed bit string has a node of its own. -/
theorem Stored.length_lt_next (stored : Stored heap L m) (placed : L.place s = some p) :
    s.length < heap.next := by
  choose node found using fun i => Layout.place_of_prefix (List.take_prefix i s) placed
  have fits : (Finset.range (s.length + 1)).card ≤ (Finset.range heap.next).card := by
    refine Finset.card_le_card_of_injOn node (fun i _ => ?_) fun i low j low' same => ?_
    · obtain ⟨_, live, _⟩ := stored.node _ _ (found i)
      simpa using Heap.lt_next_of_get? live
    · have cut := congrArg List.length (L.injective _ _ _ (found i) (same ▸ found j))
      simp at low low' cut
      omega
  rwa [Finset.card_range, Finset.card_range] at fits

/-- The tree of the nodes for the bit strings that begin with `s`. -/
structure Spans (heap : Heap (BstNode α)) (L : Layout) (parent : Ptr) (s : List Bool)
    (t : BinaryTree Ptr) : Prop where
  top : topOf t = L.place s
  links : Holds heap parent t
  distinct : (nodesOf t).Nodup
  nodes : ∀ q, q ∈ nodesOf t ↔ ∃ rest, L.place (s ++ rest) = some q

private theorem Spans.nil (vacant : L.place s = none) : Spans heap L parent s .nil where
  top := vacant.symm
  links := trivial
  distinct := List.nodup_nil
  nodes := by simp [nodesOf, L.vacant_append vacant]

private theorem Spans.node (stored : Stored heap L m) (placed : L.place s = some p)
    (above : L.place s.dropLast = some parent) {left right : BinaryTree Ptr}
    (onLeft : Spans heap L p (s ++ [false]) left) (onRight : Spans heap L p (s ++ [true]) right) :
    Spans heap L parent s (.node p left right) := by
  obtain ⟨node, live, ok⟩ := stored.node s p placed
  have inLeft := onLeft.nodes
  have inRight := onRight.nodes
  have here : L.place (s ++ []) = some p := by rwa [List.append_nil]
  simp only [List.append_assoc, List.singleton_append] at inLeft inRight
  have apart {r r' : List Bool} {q : Ptr} (first : L.place (s ++ r) = some q)
      (second : L.place (s ++ r') = some q) : r = r' :=
    List.append_cancel_left (L.injective _ _ _ first second)
  refine ⟨placed.symm, ⟨⟨node, live, ?_, ?_, ?_⟩, onLeft.links, onRight.links⟩, ?_, fun q => ?_⟩
  · exact Option.some.inj (ok.parent.symm.trans above)
  · rw [ok.left, onLeft.top]
  · rw [ok.right, onRight.top]
  · have := onLeft.distinct
    have := onRight.distinct
    grind [nodesOf]
  · constructor
    · grind [nodesOf]
    · rintro ⟨_ | ⟨_ | _, rest⟩, found⟩ <;> grind [nodesOf]

private theorem Stored.exists_spans (stored : Stored heap L m) (s : List Bool) {parent : Ptr}
    (above : L.place s.dropLast = some parent) : ∃ t, Spans heap L parent s t := by
  cases placed : L.place s with
  | none => exact ⟨.nil, .nil placed⟩
  | some p =>
    have short := stored.length_lt_next placed
    have below (b : Bool) := stored.exists_spans (s ++ [b]) (by simpa using placed)
    obtain ⟨left, onLeft⟩ := below false
    obtain ⟨right, onRight⟩ := below true
    exact ⟨_, .node stored placed above onLeft onRight⟩
termination_by heap.next - s.length
decreasing_by
  simp only [List.length_append, List.length_singleton]
  omega

private theorem Represents.exists_root (rep : Represents tree L m) (counted : tree.entries > 0) :
    ∃ root, tree.root = some root := by
  have some_key : m.keys.Nonempty := by
    rw [← Finset.card_ne_zero]
    intro none
    rw [rep.entries, none] at counted
    exact absurd counted (by decide)
  obtain ⟨s, member⟩ := some_key
  obtain ⟨value, found⟩ := Finmap.mem_iff.mp (Finmap.mem_keys.mp member)
  obtain ⟨p, placed⟩ := rep.support s value found
  obtain ⟨root, first⟩ := Layout.place_of_prefix s.nil_prefix placed
  exact ⟨root, rep.root.trans first⟩

private theorem Represents.wellFormed (rep : Represents tree L m) {root : Ptr}
    (top : tree.root = some root) :
    ∃ left right, WellFormed tree root left right ∧
      ∀ q, q ∈ nodesOf (.node root left right) ↔ ∃ s, tree.nodeAt s = some q := by
  have placed : L.place [] = some root := rep.root.symm.trans top
  obtain ⟨t, spans⟩ := rep.exists_spans [] placed
  have here := spans.top.trans placed
  cases t with
  | nil => cases here
  | node n left right =>
    cases here
    refine ⟨left, right, ⟨top, spans.links, spans.distinct⟩, ?_⟩
    simpa [rep.nodeAt_eq] using spans.nodes

/-- The trie is as new. Its nodes are freed, after a destroy operation on each entry that has
one, and no other memory is touched. -/
structure Emptied (tree : Bst α) (m : BitMap α) (tree' : Bst α) : Prop where
  fresh : Represents tree' Layout.empty ∅
  freed : ∀ s p, tree.nodeAt s = some p → tree'.heap.get? p = none
  kept : ∀ p, (∀ s, tree.nodeAt s ≠ some p) → tree'.heap.get? p = tree.heap.get? p
  destroyed : ∃ called, tree'.destroyed = called ++ tree.destroyed ∧ called.Nodup ∧
    ∀ p, p ∈ called ↔ ∃ s ∈ m, tree.nodeAt s = some p ∧ tree.destroys p = true

private theorem Represents.emptied (rep : Represents tree L m) (counted : tree.entries > 0) :
    ∃ rounds tree', (∀ fuel, bstDestroy (fuel + rounds) tree = .ok tree') ∧
      Emptied tree m tree' := by
  obtain ⟨root, top⟩ := rep.exists_root counted
  obtain ⟨left, right, trie, nodes⟩ := rep.wellFormed top
  have inner := (List.nodup_cons.mp trie.distinct).1
  obtain ⟨tree₁, node₁, ⟨rounds, run⟩, cleared, live₁, parent, noLeft, noRight⟩ :=
    (clears root left).children (clears root right) trie.links trie.distinct inner
  obtain ⟨tree₂, last, top₂, _⟩ := destroyRoot live₁ parent
  have cleared : Cleared (nodesOf (.node root left right)) root tree tree₂ :=
    cleared.trans top₂ (by simpa using inner) inner (.inl rfl)
  refine ⟨1 + rounds, { tree₂ with root := none, entries := 0 }, fun fuel => ?_, ?_, ?_, ?_, ?_⟩
  · have ends : bstDestroySubtree root (fuel + 1 + rounds) tree root = .ok tree₂ := by
      rw [run, bstDestroySubtree, Heap.read_of_live live₁, ok_bind,
        if_pos ⟨rfl, noLeft, noRight⟩, last]
    simp only [bstDestroy, if_pos counted, top, ← Nat.add_assoc, ends, ok_bind, pure_eq_ok]
  · exact ⟨⟨by rintro _ _ ⟨⟩, by simp⟩, rfl, by simp⟩
  · intro s p found
    exact cleared.freed p ((nodes p).mpr ⟨s, found⟩)
  · intro p outside
    refine cleared.kept p ?_ fun inside => ?_
    · rintro rfl
      exact outside [] (by simp [Bst.nodeAt, top, walk])
    · obtain ⟨s, found⟩ := (nodes p).mp inside
      exact outside s found
  · refine ⟨_, cleared.destroyed, trie.distinct.filter _, fun q => ?_⟩
    rw [List.mem_filter, nodes]
    constructor
    · rintro ⟨⟨s, found⟩, due⟩
      obtain ⟨node, live, ok⟩ := rep.node s q ((rep.nodeAt_eq s).symm.trans found)
      have active : s ∈ m := by
        rw [destroys_of_live live, ok.priv, Bool.and_eq_true] at due
        exact Finmap.lookup_isSome.mp due.1
      exact ⟨s, active, found, due⟩
    · rintro ⟨s, _, found, due⟩
      exact ⟨⟨s, found⟩, due⟩

/-- Whatever was inserted, removed and released, `bst_destroy` ends without a fault. It empties a
trie that counts an entry, and leaves any other one as it is. -/
theorem history_destroyed (history : List (BstOp α))
    (admitted : Admits trackedStep (fun state op => Callable state.1 op ∧ HasRoom state.2 op)
      (bstInit, ∅) history) :
    ∃ tree m rounds tree', runAll trackedStep (bstInit, ∅) history = .ok (tree, m) ∧
      tree.entries = UInt32.ofNat m.keys.card ∧
      (∀ fuel, bstDestroy (fuel + rounds) tree = .ok tree') ∧
      (tree.entries > 0 → Emptied tree m tree') ∧ (tree.entries = 0 → tree' = tree) := by
  obtain ⟨⟨tree, m⟩, run, L, rep⟩ := history_represents admitted
  by_cases counted : tree.entries > 0
  · obtain ⟨rounds, tree', ends, emptied⟩ := rep.emptied counted
    refine ⟨tree, m, rounds, tree', run, rep.entries, ends, fun _ => emptied, fun zero => ?_⟩
    exact absurd (zero ▸ counted) (by decide)
  · refine ⟨tree, m, 0, tree, run, rep.entries, fun fuel => ?_, fun more => absurd more counted,
      fun _ => rfl⟩
    rw [bstDestroy, if_neg counted, pure_eq_ok]

theorem history_destroyed_sample : ∃ tree m rounds tree', runAll trackedStep (bstInit, ∅)
      [.insert (some ⟨none, true⟩) 7 [0x80] 3] = .ok (tree, m) ∧
    (∀ fuel, bstDestroy (fuel + rounds) tree = .ok tree') ∧ Emptied tree m tree' := by
  obtain ⟨tree, m, rounds, tree', run, _, ends, emptied, _⟩ :=
    history_destroyed [.insert (some ⟨none, true⟩) 7 [0x80] 3]
      ⟨⟨⟨by decide, by simp⟩, (by decide : 0 < 2 ^ 32)⟩, fun _ _ => trivial⟩
  refine ⟨tree, m, rounds, tree', run, ends, emptied ?_⟩
  cases run
  decide

end Serval
