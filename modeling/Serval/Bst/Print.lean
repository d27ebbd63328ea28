import Serval.Bst.Destroy

/-!
# The two printers of a trie

`bst_node_print_nonrecursive` keeps a stack of nodes and counts down what is
left of the buffer node by node; `bst_node_print_recursive` does so subtree by
subtree. The lengths that are printed are numbers: none is negative, and their
sum is to fit an `int`.
-/

namespace Serval

open Serval.Support

variable {α : Type}

structure PrintCall where
  node : Ptr
  buf : Nat
  buflen : Nat
  deriving DecidableEq

structure Printer where
  calls : List PrintCall
  buflen : Nat
  totLen : Nat

/-- The bookkeeping after something of length `len` has been printed. -/
def Printer.advance (s : Printer) (calls : List PrintCall) (len : Nat) : Printer where
  calls := s.calls ++ calls
  buflen := if len > s.buflen then 0 else s.buflen - len
  totLen := s.totLen + len

theorem Printer.advance_advance (s : Printer) (calls calls' : List PrintCall) (len len' : Nat) :
    (s.advance calls len).advance calls' len' = s.advance (calls ++ calls') (len + len') := by
  simp only [advance, List.append_assoc, Nat.add_assoc, Printer.mk.injEq, true_and, and_true]
  split_ifs <;> omega

section

-- The field `print` of `struct bst_node_ops`.
variable (print : BstNodeOps α → Option (Ptr → Nat → Nat)) (heap : Heap (BstNode α)) (buf : Nat)

def printNode (n : Ptr) (node : BstNode α) (s : Printer) : Printer :=
  if node.priv.isSome then
    match node.ops.bind print with
    | some op => s.advance [⟨n, buf + s.totLen, s.buflen⟩] (op n s.buflen)
    | none => s
  else s

/-- The stack is threaded through the nodes, each of which is on it only once. -/
def printLoop : Nat → List Ptr → Printer → Except Fault Printer
  | 0, _, _ => .error .fuel
  | _ + 1, [], s => return s
  | fuel + 1, n :: stack, s => do
    let node ← heap.read n
    printLoop fuel (node.left.toList ++ (node.right.toList ++ stack)) (printNode print buf n node s)

/-- The first node is pushed without a look at it. -/
def bstNodePrintNonrecursive (fuel : Nat) (n : Option Ptr) (buflen : Nat) :
    Except Fault (List PrintCall × Nat) :=
  match n with
  | none => .error .null
  | some n => do
    let s ← printLoop print heap buf fuel [n] ⟨[], buflen, 0⟩
    return (s.calls, s.totLen)

def bstNodePrintRecursive : Nat → Nat → Option Ptr → Nat → Except Fault (List PrintCall × Nat)
  | 0, _, _, _ => .error .fuel
  | _ + 1, _, none, _ => return ([], 0)
  | fuel + 1, buf, some n, buflen => do
    let node ← heap.read n
    let s := printNode print buf n node ⟨[], buflen, 0⟩
    let (calls, len) ← bstNodePrintRecursive fuel (buf + s.totLen) node.left s.buflen
    let s := s.advance calls len
    let (calls, len) ← bstNodePrintRecursive fuel (buf + s.totLen) node.right s.buflen
    let s := s.advance calls len
    return (s.calls, s.totLen)

end

section

variable {print : BstNodeOps α → Option (Ptr → Nat → Nat)} {heap : Heap (BstNode α)} {buf : Nat}

variable (print buf) in
private theorem printNode_fresh (n : Ptr) (node : BstNode α) (s : Printer) :
    ∃ calls len, printNode print buf n node s = s.advance calls len ∧
      printNode print (buf + s.totLen) n node ⟨[], s.buflen, 0⟩ =
        Printer.advance ⟨[], s.buflen, 0⟩ calls len := by
  unfold printNode
  split
  · cases node.ops.bind print with
    | none => exact ⟨[], 0, by simp [Printer.advance]⟩
    | some op => exact ⟨[⟨n, buf + s.totLen, s.buflen⟩], op n s.buflen, rfl, rfl⟩
  · exact ⟨[], 0, by simp [Printer.advance]⟩

/-- A subtree is printed as by a call of its own, and the stack is left as it was. -/
theorem printLoop_subtree : ∀ {t : BinaryTree Ptr} {parent : Ptr}, Holds heap parent t →
    ∀ (s : Printer), ∃ calls len,
    (∀ fuel, (nodesOf t).length ≤ fuel → bstNodePrintRecursive print heap (fuel + 1)
        (buf + s.totLen) (topOf t) s.buflen = .ok (calls, len)) ∧
      ∀ fuel stack, printLoop print heap buf (fuel + (nodesOf t).length) ((topOf t).toList ++ stack)
        s = printLoop print heap buf fuel stack (s.advance calls len)
  | .nil, _, _, s => by
    refine ⟨[], 0, fun _ _ => rfl, fun fuel stack => ?_⟩
    simp [Printer.advance, nodesOf, topOf]
  | .node n left right, _, ⟨⟨node, live, _, onLeft, onRight⟩, leftHeld, rightHeld⟩, s => by
    obtain ⟨calls, len, next, fresh⟩ := printNode_fresh print buf n node s
    obtain ⟨calls₁, len₁, runLeft, loopLeft⟩ := printLoop_subtree leftHeld (s.advance calls len)
    obtain ⟨calls₂, len₂, runRight, loopRight⟩ :=
      printLoop_subtree rightHeld ((s.advance calls len).advance calls₁ len₁)
    have size : (nodesOf (.node n left right)).length =
        (nodesOf right).length + (nodesOf left).length + 1 := by
      simp [nodesOf, Nat.add_comm]
    rw [size]
    refine ⟨calls ++ (calls₁ ++ calls₂), len + (len₁ + len₂), fun fuel enough => ?_,
      fun fuel stack => ?_⟩
    · obtain ⟨fuel, rfl⟩ : ∃ more, fuel = more + 1 := ⟨fuel - 1, by omega⟩
      -- A call of its own counts from zero.
      have ahead (calls : List PrintCall) (len : Nat) : buf + s.totLen + (Printer.advance
          ⟨[], s.buflen, 0⟩ calls len).totLen = buf + (s.advance calls len).totLen := by
        simp [Printer.advance, Nat.add_assoc]
      have behind (calls : List PrintCall) (len : Nat) : (Printer.advance
          ⟨[], s.buflen, 0⟩ calls len).buflen = (s.advance calls len).buflen := rfl
      rw [Printer.advance_advance] at runRight
      rw [topOf, bstNodePrintRecursive, Heap.read_of_live live, ok_bind]
      simp only [fresh, onLeft, onRight, Printer.advance_advance, ahead, behind, ok_bind,
        runLeft fuel (by omega), runRight fuel (by omega)]
      simp [Printer.advance, Nat.add_assoc]
    · rw [← Printer.advance_advance, ← Printer.advance_advance, ← loopRight, ← loopLeft, ← onLeft,
        ← onRight, ← next]
      simp [topOf, printLoop, Heap.read_of_live live, ← Nat.add_assoc]

/-- Both ways to print a trie make the same calls and report the same length. -/
theorem bstNodePrint_agree {tree : Bst α} {root : Ptr} {left right : BinaryTree Ptr}
    (trie : WellFormed tree root left right) (buflen : Nat) :
    ∃ rounds calls len, ∀ fuel,
      bstNodePrintNonrecursive print tree.heap buf (fuel + rounds) tree.root buflen =
          .ok (calls, len) ∧
        bstNodePrintRecursive print tree.heap (fuel + rounds) buf tree.root buflen =
          .ok (calls, len) := by
  obtain ⟨calls, len, run, loop⟩ := printLoop_subtree trie.links ⟨[], buflen, 0⟩
  refine ⟨(nodesOf (.node root left right)).length + 1, calls, len, fun fuel => ?_⟩
  rw [trie.top]
  refine ⟨?_, run _ (Nat.le_add_left _ fuel)⟩
  have ends := loop (fuel + 1) []
  rw [Nat.add_right_comm] at ends
  simp only [bstNodePrintNonrecursive, ← Nat.add_assoc]
  rw [show [root] = (topOf (.node root left right)).toList ++ [] from rfl, ends]
  simp [printLoop, Printer.advance]

end

theorem bstNodePrint_agree_sample : ∃ rounds calls len, ∀ fuel,
    bstNodePrintNonrecursive (fun _ => some fun _ _ => 10) sampleTrie.heap 0 (fuel + rounds)
        sampleTrie.root 80 = .ok (calls, len) ∧
      bstNodePrintRecursive (fun _ => some fun _ _ => 10) sampleTrie.heap (fuel + rounds) 0
        sampleTrie.root 80 = .ok (calls, len) :=
  bstNodePrint_agree sampleTrie_wellFormed 80

/-- An empty trie has no root to push. -/
theorem bstNodePrint_empty :
    bstNodePrintNonrecursive (fun _ => none) (bstInit : Bst Unit).heap 0 8 (bstInit : Bst Unit).root
        80 = .error .null ∧
      bstNodePrintRecursive (fun _ => none) (bstInit : Bst Unit).heap 8 0 (bstInit : Bst Unit).root
        80 = .ok ([], 0) :=
  ⟨rfl, rfl⟩

end Serval
