import Mathlib.Data.Tree.Basic
import Serval.Bst.Basic

/-!
# Destroying a trie

`__bst_destroy_subtree` keeps no stack. It follows the right children, moves
a left child to the right when the right one is gone, and climbs to the parent
of each leaf it frees. Seen from a node, all that is below its right child
disappears and the loop is back at the node.
-/

namespace Serval

open Serval.Support

variable {α : Type}

/-- The loop of `__bst_destroy_subtree`, at the node `n`. -/
def bstDestroySubtree (root : Ptr) : Nat → Bst α → Ptr → Except Fault (Bst α)
  | 0, _, _ => .error .fuel
  | fuel + 1, tree, n => do
    let node ← tree.heap.read n
    if n = root ∧ node.left = none ∧ node.right = none then
      let tree ← bstNodeOrphan tree n
      bstNodeFree tree n
    else
      match node.right, node.left with
      | none, none =>
        let tree ← bstNodeOrphan tree n
        let tree ← bstNodeFree tree n
        bstDestroySubtree root fuel tree node.parent
      | none, some left =>
        let heap ← tree.heap.write n { node with right := some left, left := none }
        bstDestroySubtree root fuel { tree with heap } n
      | some right, _ => bstDestroySubtree root fuel tree right

def topOf : BinaryTree Ptr → Option Ptr
  | .nil => none
  | .node n _ _ => some n

def nodesOf : BinaryTree Ptr → List Ptr
  | .nil => []
  | .node n left right => n :: (nodesOf left ++ nodesOf right)

/-- The links of the heap, from the nodes to their children and back, are
those of the tree, which hangs below `parent`. -/
def Holds (heap : Heap (BstNode α)) : Ptr → BinaryTree Ptr → Prop
  | _, .nil => True
  | parent, .node n left right =>
    (∃ node, heap.get? n = some node ∧ node.parent = parent ∧
      node.left = topOf left ∧ node.right = topOf right) ∧
    Holds heap n left ∧ Holds heap n right

/-- A trie whose root is its own parent. -/
structure WellFormed (tree : Bst α) (root : Ptr) (left right : BinaryTree Ptr) : Prop where
  top : tree.root = some root
  links : Holds tree.heap root (.node root left right)
  distinct : (nodesOf (.node root left right)).Nodup

private theorem Holds.congr {heap heap' : Heap (BstNode α)} : ∀ {t : BinaryTree Ptr} {parent : Ptr},
    (∀ p ∈ nodesOf t, heap'.get? p = heap.get? p) → Holds heap parent t → Holds heap' parent t
  | .nil, _, _, _ => trivial
  | .node n left right, parent, same, ⟨⟨node, live, links⟩, onLeft, onRight⟩ => by
    refine ⟨⟨node, ?_, links⟩, onLeft.congr ?_, onRight.congr ?_⟩
    · rw [same n List.mem_cons_self, live]
    · intro p below
      exact same p (List.mem_cons_of_mem n (List.mem_append_left _ below))
    · intro p below
      exact same p (List.mem_cons_of_mem n (List.mem_append_right _ below))

/-! ## What the loop leaves -/

def Bst.destroys (tree : Bst α) (p : Ptr) : Bool :=
  (tree.heap.get? p).any fun node => node.priv.isSome && node.ops.any (·.destroy)

/-- The nodes `gone` have been freed, after a call of the destroy operation on
each that has one; of the others at most the links of `n` have changed. -/
structure Cleared (gone : List Ptr) (n : Ptr) (tree tree' : Bst α) : Prop where
  freed : ∀ p ∈ gone, tree'.heap.get? p = none
  kept : ∀ p, p ≠ n → p ∉ gone → tree'.heap.get? p = tree.heap.get? p
  due : n ∉ gone → tree'.destroys n = tree.destroys n
  destroyed : tree'.destroyed = gone.filter tree.destroys ++ tree.destroyed

variable {tree tree₁ tree₂ : Bst α} {n n' : Ptr} {node : BstNode α} {first second : List Ptr}

theorem Cleared.destroys_eq (cleared : Cleared first n tree tree₁) {p : Ptr} (stays : p ∉ first) :
    tree₁.destroys p = tree.destroys p := by
  by_cases same : p = n
  · subst same
    exact cleared.due stays
  · rw [Bst.destroys, cleared.kept p same stays, Bst.destroys]

/-- The node that the first part relinks may be one that the second part frees. -/
theorem Cleared.trans (cleared : Cleared first n tree tree₁) (later : Cleared second n' tree₁ tree₂)
    (apart : ∀ p ∈ second, p ∉ first) (outside : n' ∉ first) (hands : n = n' ∨ n ∈ second) :
    Cleared (second ++ first) n' tree tree₂ where
  freed p gone := by
    by_cases now : p ∈ second
    · exact later.freed p now
    · have before : p ∈ first := (List.mem_append.mp gone).resolve_left now
      have other : p ≠ n' := fun same => outside (same ▸ before)
      rw [later.kept p other now, cleared.freed p before]
  kept p other stays := by
    rw [List.mem_append, not_or] at stays
    rw [later.kept p other stays.1, cleared.kept p ?_ stays.2]
    rintro rfl
    exact hands.elim other stays.1
  due stays := by
    rw [List.mem_append, not_or] at stays
    rw [later.due stays.1, cleared.destroys_eq stays.2]
  destroyed := by
    have same : second.filter tree₁.destroys = second.filter tree.destroys :=
      List.filter_congr fun p now => cleared.destroys_eq (apart p now)
    rw [later.destroyed, cleared.destroyed, same, List.filter_append, List.append_assoc]

theorem destroys_of_live (live : tree.heap.get? n = some node) :
    tree.destroys n = (node.priv.isSome && node.ops.any (·.destroy)) := by
  simp [Bst.destroys, live]

private theorem Cleared.relink (node' : BstNode α) (live : tree.heap.get? n = some node)
    (ops : node'.ops = node.ops) (priv : node'.priv = node.priv) :
    Cleared [] n tree { tree with heap := tree.heap.set n (some node') } where
  freed := nofun
  kept p other _ := Heap.get?_set_ne _ other
  due _ := by
    rw [destroys_of_live live, destroys_of_live (Heap.get?_set_self _ live), ops, priv]
  destroyed := rfl

private theorem bstNodeOrphan_spec (live : tree.heap.get? n = some node) :
    ∃ tree' node', bstNodeOrphan tree n = .ok tree' ∧ tree'.heap.get? n = some node' ∧
      node'.parent = node.parent ∧ (∀ p, p ≠ n → tree'.heap.get? p = tree.heap.get? p) ∧
      tree'.destroyed = [n].filter tree.destroys ++ tree.destroyed := by
  rw [bstNodeOrphan, Heap.read_of_live live, ok_bind]
  cases active : node.priv.isSome with
  | false =>
    refine ⟨tree, node, rfl, live, rfl, fun _ _ => rfl, ?_⟩
    simp [destroys_of_live live, active]
  | true =>
    simp only [if_true, Heap.write_of_live _ live, ok_bind, pure_eq_ok]
    refine ⟨_, _, rfl, Heap.get?_set_self _ live, rfl, fun p other => Heap.get?_set_ne _ other, ?_⟩
    cases calls : node.ops.any (·.destroy) <;> simp [destroys_of_live live, active, calls]

private theorem destroyChild {above : BstNode α} (live : tree.heap.get? n = some node)
    (different : n ≠ node.parent) (aboveLive : tree.heap.get? node.parent = some above)
    (onRight : above.right = some n) :
    ∃ tree', (bstNodeOrphan tree n >>= fun tree => bstNodeFree tree n) = .ok tree' ∧
      Cleared [n] node.parent tree tree' ∧
      tree'.heap.get? node.parent = some { above with right := none } := by
  obtain ⟨tree₁, node₁, run, live₁, parent, others, log⟩ := bstNodeOrphan_spec live
  have aboveLive₁ := (others _ different.symm).trans aboveLive
  have stillLive (cell : Option (BstNode α)) :=
    (Heap.get?_set_ne (h := tree₁.heap) cell different).trans live₁
  let heap := (tree₁.heap.set node.parent (some { above with right := none })).set n none
  have relinked : heap.get? node.parent = some { above with right := none } := by
    rw [Heap.get?_set_ne _ different.symm, Heap.get?_set_self _ aboveLive₁]
  refine ⟨{ tree₁ with heap }, ?_, ⟨?_, ?_, ?_, log⟩, relinked⟩
  · simp [heap, run, bstNodeFree, Heap.read_of_live live₁, parent, different.symm, onRight,
      Heap.read_of_live aboveLive₁, Heap.write_of_live _ aboveLive₁,
      Heap.free_of_live (stillLive _)]
  · intro p gone
    rw [List.mem_singleton.mp gone]
    exact Heap.get?_set_self _ (stillLive _)
  · intro p other stays
    have apart : p ≠ n := fun same => stays (List.mem_singleton.mpr same)
    exact (Heap.get?_set_ne _ apart).trans ((Heap.get?_set_ne _ other).trans (others p apart))
  · intro _
    rw [destroys_of_live relinked, destroys_of_live aboveLive]

theorem destroyRoot (live : tree.heap.get? n = some node) (self : node.parent = n) :
    ∃ tree', (bstNodeOrphan tree n >>= fun tree => bstNodeFree tree n) = .ok tree' ∧
      Cleared [n] n tree tree' ∧ tree'.root = none := by
  obtain ⟨tree₁, node₁, run, live₁, parent, others, log⟩ := bstNodeOrphan_spec live
  refine ⟨{ tree₁ with heap := tree₁.heap.set n none, root := none }, ?_,
    ⟨?_, ?_, ?_, log⟩, rfl⟩
  · rw [run, ok_bind, bstNodeFree, Heap.read_of_live live₁, ok_bind, parent, self,
      if_neg (not_not_intro rfl), Heap.free_of_live live₁]
    rfl
  · intro p gone
    rw [List.mem_singleton.mp gone]
    exact Heap.get?_set_self _ live₁
  · intro p other _
    exact (Heap.get?_set_ne _ other).trans (others p other)
  · intro stays
    exact absurd List.mem_cons_self stays

/-- After some rounds the loop stands at `n'`, with `tree₁` left. -/
def Leads (root : Ptr) (tree : Bst α) (n : Ptr) (tree₁ : Bst α) (n' : Ptr) : Prop :=
  ∃ rounds, ∀ fuel, bstDestroySubtree root (fuel + rounds) tree n =
    bstDestroySubtree root fuel tree₁ n'

variable {root m : Ptr}

theorem Leads.trans (leads : Leads root tree n tree₁ m) (later : Leads root tree₁ m tree₂ n') :
    Leads root tree n tree₂ n' := by
  obtain ⟨rounds, run⟩ := leads
  obtain ⟨rounds', run'⟩ := later
  refine ⟨rounds' + rounds, fun fuel => ?_⟩
  rw [← Nat.add_assoc, run, run']

private theorem leads_right (live : tree.heap.get? n = some node) (right : node.right = some m) :
    Leads root tree n tree m := by
  refine ⟨1, fun fuel => ?_⟩
  simp [bstDestroySubtree, Heap.read_of_live live, right]

/-- Without a left child there is nothing to move. -/
theorem leads_moved (live : tree.heap.get? n = some node) (right : node.right = none) :
    Leads root tree n { tree with
      heap := tree.heap.set n (some { node with right := node.left, left := none }) } n := by
  cases left : node.left with
  | none =>
    have same : { node with right := none, left := none } = node := by
      cases node
      cases right
      cases left
      rfl
    rw [same, Heap.set_of_live live]
    exact ⟨0, fun _ => rfl⟩
  | some m =>
    refine ⟨1, fun fuel => ?_⟩
    simp [bstDestroySubtree, Heap.read_of_live live, Heap.write_of_live _ live, left, right]

/-- What hangs on the right of a node disappears, and the loop is back at it. -/
def Clears (α : Type) (root : Ptr) (t : BinaryTree Ptr) : Prop :=
  ∀ (tree : Bst α) (n : Ptr) (node : BstNode α), Holds tree.heap n t →
    tree.heap.get? n = some node → node.right = topOf t → (n :: nodesOf t).Nodup →
    root ∉ nodesOf t →
    ∃ tree', Leads root tree n tree' n ∧ Cleared (nodesOf t) n tree tree' ∧
      tree'.heap.get? n = some { node with right := none }

theorem Clears.children {left right : BinaryTree Ptr} (onLeft : Clears α root left)
    (onRight : Clears α root right) (links : Holds tree.heap m (.node n left right))
    (distinct : (nodesOf (.node n left right)).Nodup)
    (inner : root ∉ nodesOf left ++ nodesOf right) :
    ∃ tree' node', Leads root tree n tree' n ∧
      Cleared (nodesOf left ++ nodesOf right) n tree tree' ∧
      tree'.heap.get? n = some node' ∧ node'.parent = m ∧ node'.left = none ∧
      node'.right = none := by
  obtain ⟨⟨node, live, parent, leftTop, rightTop⟩, leftHeld, rightHeld⟩ := links
  obtain ⟨outside, apart⟩ := List.nodup_cons.mp distinct
  obtain ⟨leftDistinct, rightDistinct, apart⟩ := List.nodup_append.mp apart
  rw [List.mem_append, not_or] at outside inner
  obtain ⟨tree₁, leads₁, cleared₁, live₁⟩ := onRight tree n node rightHeld live rightTop
    (List.nodup_cons.mpr ⟨outside.2, rightDistinct⟩) inner.2
  have notRight : ∀ p ∈ nodesOf left, p ∉ nodesOf right := by
    intro p below also
    exact apart p below p also rfl
  -- The left subtree has not been touched, and now hangs on the right.
  let node₁ := { node with right := node.left, left := none }
  have leftHeld₁ : Holds (tree₁.heap.set n (some node₁)) n left := by
    refine leftHeld.congr fun p below => ?_
    have other : p ≠ n := fun same => outside.1 (same ▸ below)
    rw [Heap.get?_set_ne _ other, cleared₁.kept p other (notRight p below)]
  obtain ⟨tree₂, leads₂, cleared₂, live₂⟩ := onLeft { tree₁ with heap := _ } n node₁ leftHeld₁
    (Heap.get?_set_self _ live₁) leftTop (List.nodup_cons.mpr ⟨outside.1, leftDistinct⟩) inner.1
  refine ⟨tree₂, _, leads₁.trans ((leads_moved live₁ rfl).trans leads₂), ?_, live₂, parent, rfl,
    rfl⟩
  have moved := cleared₁.trans (Cleared.relink node₁ live₁ rfl rfl) nofun outside.2 (.inl rfl)
  exact moved.trans cleared₂ notRight outside.2 (.inl rfl)

private theorem leads_leaf (live : tree.heap.get? n = some node) (left : node.left = none)
    (right : node.right = none) (inner : n ≠ root)
    (run : (bstNodeOrphan tree n >>= fun tree => bstNodeFree tree n) = .ok tree₁) :
    Leads root tree n tree₁ node.parent := by
  refine ⟨1, fun fuel => ?_⟩
  obtain ⟨tree₂, orphan, free⟩ := of_bind run
  simp [bstDestroySubtree, Heap.read_of_live live, left, right, inner, orphan, free]

theorem clears (root : Ptr) : ∀ t : BinaryTree Ptr, Clears α root t
  | .nil, tree, n, node, _, live, right, _, _ => by
    have same : { node with right := none } = node := by
      cases node
      cases right
      rfl
    rw [same]
    exact ⟨tree, ⟨0, fun _ => rfl⟩, ⟨nofun, fun _ _ _ => rfl, fun _ => rfl, rfl⟩, live⟩
  | .node m left right, tree, n, node, links, live, top, distinct, inner => by
    obtain ⟨outside, below⟩ := List.nodup_cons.mp distinct
    obtain ⟨notRoot, inner⟩ := not_or.mp (List.mem_cons.not.mp inner)
    obtain ⟨different, outside⟩ := not_or.mp (List.mem_cons.not.mp outside)
    obtain ⟨tree₁, node₁, leads, cleared, live₁, parent, noLeft, noRight⟩ :=
      (clears root left).children (clears root right) links below inner
    subst parent
    have aboveLive := (cleared.kept _ different outside).trans live
    obtain ⟨tree₂, run, leaf, above⟩ := destroyChild live₁ (Ne.symm different) aboveLive top
    refine ⟨tree₂, (leads_right live top).trans (leads.trans
      (leads_leaf live₁ noLeft noRight (Ne.symm notRoot) run)), ?_, above⟩
    refine cleared.trans leaf ?_ outside (.inr List.mem_cons_self)
    intro p gone
    rw [List.mem_singleton.mp gone]
    exact (List.nodup_cons.mp below).1

/-- A freed node that is used again, or freed again, would be a fault. -/
theorem bstDestroySubtree_exact {left right : BinaryTree Ptr}
    (trie : WellFormed tree root left right) :
    ∃ rounds tree', (∀ fuel, bstDestroySubtree root (fuel + rounds) tree root = .ok tree') ∧
      Cleared (nodesOf (.node root left right)) root tree tree' ∧ tree'.root = none := by
  have inner := (List.nodup_cons.mp trie.distinct).1
  obtain ⟨tree₁, node₁, ⟨rounds, run⟩, cleared, live₁, parent, noLeft, noRight⟩ :=
    (clears root left).children (clears root right) trie.links trie.distinct inner
  obtain ⟨tree₂, last, top, empty⟩ := destroyRoot live₁ parent
  refine ⟨1 + rounds, tree₂, fun fuel => ?_, ?_, empty⟩
  · rw [← Nat.add_assoc, run, bstDestroySubtree, Heap.read_of_live live₁, ok_bind,
      if_pos ⟨rfl, noLeft, noRight⟩, last]
  · refine cleared.trans top ?_ inner (.inl rfl)
    intro p gone
    rwa [List.mem_singleton.mp gone]

def sampleTrie : Bst Unit where
  heap := ⟨[some { (freshRoot 0 : BstNode Unit) with left := some 1 },
    some { (freshRoot 0 : BstNode Unit) with ops := some ⟨none, true⟩, priv := some () }]⟩
  root := some 0
  entries := 1
  destroyed := []

theorem sampleTrie_wellFormed : WellFormed sampleTrie 0 (.node 1 .nil .nil) .nil where
  top := rfl
  links := ⟨⟨_, rfl, rfl, rfl, rfl⟩, ⟨⟨_, rfl, rfl, rfl, rfl⟩, trivial, trivial⟩, trivial⟩
  distinct := by decide

theorem sampleTrie_destroyed : ∃ rounds tree',
    (∀ fuel, bstDestroySubtree 0 (fuel + rounds) sampleTrie 0 = .ok tree') ∧
      Cleared [0, 1] 0 sampleTrie tree' ∧ tree'.root = none :=
  bstDestroySubtree_exact sampleTrie_wellFormed

end Serval
