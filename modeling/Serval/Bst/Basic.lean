import Serval.Support.Heap
import Serval.Support.Bits

/-!
# The bitwise trie of `bst.c`

Nodes live in a heap and point at each other, as in the source. Every
function takes the tree and returns the tree it leaves behind; following a
dangling pointer is a fault. The loops of the source run on fuel, one unit a
round, and running out of it is a fault of its own.
-/

namespace Serval

open Serval.Support

/-- `struct bst_node_ops`. `init` only ever looks at the data of the node it
is given, and `destroy` acts outside the trie, so that here it is present or
absent. -/
structure BstNodeOps (α : Type) where
  init : Option (α → Int)
  destroy : Bool

/-- `struct bst_node`. A node is active when `priv`, the field `private` of
the source, is not null. -/
structure BstNode (α : Type) where
  parent : Ptr
  left : Option Ptr
  right : Option Ptr
  ops : Option (BstNodeOps α)
  priv : Option α
  prefixBits : Nat
  prefixSize : Nat
  prefixBytes : List UInt8

def BstNode.setChild {α : Type} (node : BstNode α) (goRight : Bool) (n : Ptr) : BstNode α :=
  if goRight then { node with right := some n }
  else { node with left := some n }

/-- `struct bst` with the memory its nodes live in. `destroyed` lists the
nodes on which the destroy operation has been called, the latest first. -/
structure Bst (α : Type) where
  heap : Heap (BstNode α)
  root : Option Ptr
  entries : UInt32
  destroyed : List Ptr

variable {α : Type}

def prefixByte (bits : Nat) : Nat := bits / 8

def prefixSize (bits : Nat) : Nat := prefixByte bits + if bits % 8 ≠ 0 then 1 else 0

def checkBit (key : List UInt8) (bitoffset : Nat) : Except Fault Bool :=
  match key[prefixByte bitoffset]? with
  | some byte =>
    .ok ((byte &&& UInt8.ofNat (0x1 <<< (7 - bitoffset % 8))) != 0)
  | none => .error .bounds

def bstInit : Bst α where
  heap := Heap.empty
  root := none
  entries := 0
  destroyed := []

/-- Whether a null or non-null match callback accepts a node. -/
def accepts (matchFn : Option (BstNode α → Bool)) (node : BstNode α) : Bool :=
  match matchFn with
  | none => true
  | some f => f node

/-- The loop of `bst_node_find_longest_prefix`. The result is the node at
which the loop breaks and the last value stored through `prev`. -/
def bstNodeFindLongestPrefix (heap : Heap (BstNode α)) (key : List UInt8) (bits : Nat)
    (matchFn : Option (BstNode α → Bool)) :
    Nat → Ptr → Option Ptr → Except Fault (Ptr × Option Ptr)
  | 0, _, _ => .error .fuel
  | fuel + 1, n, prev => do
    let node ← heap.read n
    let prev :=
      if node.priv.isSome && accepts matchFn node then some n else prev
    if bits = 0 ∨ node.prefixBits = bits then
      return (n, prev)
    let goRight ← checkBit key node.prefixBits
    match (if goRight then node.right else node.left) with
    | some child =>
      bstNodeFindLongestPrefix heap key bits matchFn fuel child prev
    | none => return (n, prev)

/-- Rounds that suffice to look for `bits` bits: the depth grows by one in
each round. -/
def findFuel (bits : Nat) : Nat := bits + 1

section

variable (tree : Bst α)

def bstFindLongestPrefixMatch (key : List UInt8) (bits : Nat)
    (matchFn : Option (BstNode α → Bool)) :
    Except Fault (Option Ptr) :=
  match tree.root with
  | none => return none
  | some root => do
    let (n, prev) ← bstNodeFindLongestPrefix tree.heap key bits matchFn
        (findFuel bits) root none
    let node ← tree.heap.read n
    if node.priv.isSome && accepts matchFn node then
      return some n
    return prev

def bstFindLongestPrefix (key : List UInt8) (bits : Nat) : Except Fault (Option Ptr) :=
  bstFindLongestPrefixMatch tree key bits none

/-- The parent forgets the node, unless the node is its own parent. -/
def bstNodeFree (n : Ptr) : Except Fault (Bst α) := do
  let node ← tree.heap.read n
  if node.parent ≠ n then
    let parent ← tree.heap.read node.parent
    let parent :=
      if parent.right = some n then
        { parent with right := none }
      else
        { parent with left := none }
    let heap ← tree.heap.write node.parent parent
    let heap ← heap.free n
    return { tree with heap }
  else
    let heap ← tree.heap.free n
    return { tree with heap, root := none }

def bstNodeOrphan (n : Ptr) : Except Fault (Bst α) := do
  let node ← tree.heap.read n
  if node.priv.isSome then
    let heap ← tree.heap.write n { node with ops := none, priv := none }
    let destroyed :=
      if node.ops.any (·.destroy) then n :: tree.destroyed
      else tree.destroyed
    return { tree with heap, entries := tree.entries - 1, destroyed }
  return tree

/-- The loop of `bst_node_release` that frees the parents that are orphaned
and childless. -/
def releaseParents : Nat → Bst α → Ptr → Except Fault (Bst α)
  | 0, _, _ => .error .fuel
  | fuel + 1, tree, n => do
    let node ← tree.heap.read n
    if node.priv.isNone && node.left.isNone && node.right.isNone && n != node.parent then
      let tree ← bstNodeFree tree n
      releaseParents fuel tree node.parent
    else
      return tree

def bstNodeRelease (n : Ptr) : Except Fault (Bst α) := do
  let tree ← bstNodeOrphan tree n
  let node ← tree.heap.read n
  if node.left.isSome || node.right.isSome then
    return tree
  let tree ← bstNodeFree tree n
  releaseParents (node.prefixBits + 1) tree node.parent

/-- The result is `false` when the source returns -1. A failing `init`
leaves `ops` and `private` set. -/
def bstNodeInit (heap : Heap (BstNode α)) (n : Ptr)
    (ops : Option (BstNodeOps α)) (priv : Option α) :
    Except Fault (Bool × Heap (BstNode α)) := do
  let node ← heap.read n
  if node.ops.isSome then
    return (false, heap)
  if node.priv.isSome then
    return (false, heap)
  let heap ← heap.write n { node with ops, priv }
  match ops.bind (·.init), priv with
  | some init, some value => return (0 ≤ init value, heap)
  | some _, none => .error .null
  | none, _ => return (true, heap)

/-- A null node is returned when the allocation fails; the source's mask
loop is `highMask`. -/
def bstCreateNode (heap : Heap (BstNode α)) (parent : Ptr) (key : List UInt8)
    (size : Nat) (allocated : Bool) :
    Except Fault (Option Ptr × Heap (BstNode α)) := do
  if !allocated then
    return (none, heap)
  let above ← heap.read parent
  let goRight ← checkBit key above.prefixBits
  let n := heap.next
  let heap ← heap.write parent (above.setChild goRight n)
  if key.length < size then
    .error .bounds
  let bits := above.prefixBits + 1
  let bytes := key.take size
  let bytes :=
    if bits % 8 ≠ 0 then
      bytes.modify (size - 1) (· &&& highMask (bits % 8))
    else bytes
  return (some n, heap.alloc
    { parent, left := none, right := none, ops := none, priv := none,
      prefixBits := bits, prefixSize := size, prefixBytes := bytes })

/-- The loop of `bst_node_new`. `alloc d` says whether the allocation of
the node at depth `d` succeeds. -/
def bstNodeNew (key : List UInt8) (bits : Nat) (alloc : Nat → Bool) : Nat → Heap (BstNode α) → Ptr →
      Except Fault (Option Ptr × Heap (BstNode α))
  | 0, _, _ => .error .fuel
  | fuel + 1, heap, parent => do
    let above ← heap.read parent
    let (created, heap) ← bstCreateNode heap parent key (prefixSize (above.prefixBits + 1))
        (alloc (above.prefixBits + 1))
    match created with
    | none => return (none, heap)
    | some n =>
      let above ← heap.read parent
      let goRight ← checkBit key above.prefixBits
      let heap ← heap.write parent (above.setChild goRight n)
      if above.prefixBits + 1 ≠ bits then
        bstNodeNew key bits alloc fuel heap n
      else
        return (some n, heap)

def bstNodeInsertPrefix (heap : Heap (BstNode α)) (root : Ptr)
    (ops : Option (BstNodeOps α)) (priv : Option α)
    (key : List UInt8) (bits : Nat) (alloc : Nat → Bool) :
    Except Fault (Option Ptr × Heap (BstNode α)) := do
  let (n, _) ← bstNodeFindLongestPrefix heap key bits none (findFuel bits) root none
  let node ← heap.read n
  let (target, heap) ←
    if node.prefixBits < bits then
      bstNodeNew key bits alloc bits heap n
    else
      pure (some n, heap)
  match target with
  | none => return (none, heap)
  | some n =>
    let (initialised, heap) ← bstNodeInit heap n ops priv
    if initialised then
      return (some n, heap)
    return (none, heap)

/-- The root that `bst_insert_prefix` sets up; it is its own parent. -/
def freshRoot (self : Ptr) : BstNode α where
  parent := self
  left := none
  right := none
  ops := none
  priv := none
  prefixBits := 0
  prefixSize := 0
  prefixBytes := []

def bstInsertPrefix (ops : Option (BstNodeOps α)) (priv : Option α)
    (key : List UInt8) (bits : Nat) (alloc : Nat → Bool) :
    Except Fault (Option Ptr × Bst α) := do
  let tree :=
    if tree.entries = 0 then
      if alloc 0 then
        { tree with
          heap := tree.heap.alloc (freshRoot tree.heap.next)
          root := some tree.heap.next }
      else { tree with root := none }
    else tree
  match tree.root with
  | none =>
    -- With no entries this is the failed allocation of the root; with
    -- entries the source would follow the null root.
    if tree.entries = 0 then return (none, tree) else .error .null
  | some root =>
    let (n, heap) ← bstNodeInsertPrefix tree.heap root ops priv key bits alloc
    if n.isSome then
      return (n, { tree with heap, entries := tree.entries + 1 })
    return (none, { tree with heap })

/-- The result is `true` when the source returns 1. -/
def bstRemovePrefix (key : List UInt8) (bits : Nat) : Except Fault (Bool × Bst α) := do
  let found ← bstFindLongestPrefix tree key bits
  match found with
  | none => return (false, tree)
  | some n =>
    let node ← tree.heap.read n
    if node.prefixBits = bits then
      let tree ← bstNodeOrphan tree n
      return (true, tree)
    return (false, tree)

end

end Serval
