import Serval.Bst.History

/-!
# What a walk over the trie finds

The node that a bit string leads to knows its depth and the bits on the way
to it, the links between parents and children are each other's inverse, and
the counter of entries is exact as long as it does not wrap.
-/

namespace Serval

open Serval.Support

variable {α : Type}

def BstNode.child (node : BstNode α) (goRight : Bool) : Option Ptr :=
  if goRight then node.right else node.left

/-- What the node at `p` holds when the bit string `s` leads to it. -/
structure NodeSound (tree : Bst α) (s : List Bool) (p : Ptr) (node : BstNode α) : Prop where
  depth : node.prefixBits = s.length
  size : node.prefixBytes.length = prefixSize s.length
  bytes :
    takeBits node.prefixBytes (8 * prefixSize s.length) =
      s ++ List.replicate (8 * prefixSize s.length - s.length) false
  children :
    ∀ b c, node.child b = some c →
      ∃ child, tree.heap.get? c = some child ∧ child.parent = p
  parent :
    ∀ t b, s = t ++ [b] →
      ∃ above, tree.heap.get? node.parent = some above ∧ above.child b = some p
  root : s = [] → node.parent = p

def Bst.Active (tree : Bst α) (s : List Bool) : Prop :=
  ∃ p node, tree.nodeAt s = some p ∧ tree.heap.get? p = some node ∧ node.priv.isSome = true

def Bst.Counted (tree : Bst α) : Prop :=
  ∃ active : Finset (List Bool),
    (∀ s, s ∈ active ↔ tree.Active s) ∧ tree.entries.toNat = active.card

/-- Every node that is reached by a path is sound. -/
structure TrieSound (tree : Bst α) : Prop where
  node :
    ∀ s p, tree.nodeAt s = some p →
      ∃ node, tree.heap.get? p = some node ∧ NodeSound tree s p node
  counted : tree.Counted

section Trie

variable {tree : Bst α} {L : Layout} {m : BitMap α}

theorem length_le_prefixSize (length : Nat) : length ≤ 8 * prefixSize length := by
  rw [prefixSize_eq]
  omega

theorem Represents.nodeSound (rep : Represents tree L m) {s : List Bool} {p : Ptr}
    {node : BstNode α} (placed : L.place s = some p)
    (ok : NodeOk L m s node) : NodeSound tree s p node where
  depth := ok.depth
  size := by
    rw [ok.bytes, packBits_length, prefixSize_eq]
  bytes := by
    rw [ok.bytes]
    exact takeBits_packBits_pad s (length_le_prefixSize s.length)
  children := by
    intro b c below
    rw [BstNode.child, ok.child] at below
    obtain ⟨child, live, childOk⟩ := rep.node _ c below
    refine ⟨child, live, ?_⟩
    have up := childOk.parent
    rw [List.dropLast_concat, placed] at up
    exact (Option.some.inj up).symm
  parent := by
    intro t b same
    have up := ok.parent
    rw [same, List.dropLast_concat] at up
    obtain ⟨above, live, aboveOk⟩ := rep.node t _ up
    refine ⟨above, live, ?_⟩
    rw [BstNode.child, aboveOk.child, ← same]
    exact placed
  root := by
    intro atRoot
    have up := ok.parent
    rw [atRoot, List.dropLast_nil, ← atRoot, placed] at up
    exact (Option.some.inj up).symm

theorem Represents.active_iff (rep : Represents tree L m) (s : List Bool) :
    tree.Active s ↔ s ∈ m := by
  rw [← Finmap.lookup_isSome]
  constructor
  · intro active
    obtain ⟨p, node, here, live, some⟩ := active
    rw [rep.nodeAt_eq] at here
    obtain ⟨same, sameLive, ok⟩ := rep.node s p here
    rw [live] at sameLive
    cases sameLive
    rwa [ok.priv] at some
  · intro some
    obtain ⟨value, held⟩ := Option.isSome_iff_exists.mp some
    obtain ⟨p, placed⟩ := rep.support s value held
    obtain ⟨node, live, ok⟩ := rep.node s p placed
    exact ⟨p, node, (rep.nodeAt_eq s).trans placed, live, by rwa [ok.priv]⟩

theorem Represents.counted (rep : Represents tree L m) (few : m.keys.card < 2 ^ 32) :
    tree.Counted := by
  refine ⟨m.keys, ?_, ?_⟩
  · intro s
    rw [Finmap.mem_keys, rep.active_iff]
  · rw [rep.entries, UInt32.toNat_ofNat_of_lt' few]

theorem Represents.trieSound (rep : Represents tree L m) (few : m.keys.card < 2 ^ 32) :
    TrieSound tree where
  node := by
    intro s p here
    rw [rep.nodeAt_eq] at here
    obtain ⟨node, live, ok⟩ := rep.node s p here
    exact ⟨node, live, rep.nodeSound here ok⟩
  counted := rep.counted few

end Trie

end Serval
