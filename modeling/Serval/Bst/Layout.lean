import Serval.Bst.Basic
import Serval.Support.BitMap

/-!
# Where the nodes of a trie lie

A layout gives the address of the node that stands for each bit string. A
heap stores a layout and a map when every placed node carries the fields its
bit string and the map dictate: its depth, its packed bits, its links to the
children and back to the parent, and the value the map holds for it. Nodes
that the layout does not mention may lie around in the heap; nothing is said
about them.
-/

namespace Serval

open Serval.Support

structure Layout where
  place : List Bool → Option Ptr
  closed : ∀ s b p, place (s ++ [b]) = some p → ∃ q, place s = some q
  injective : ∀ s t p, place s = some p → place t = some p → s = t

namespace Layout

variable {L : Layout}

def single (p : Ptr) : Layout where
  place s := if s = [] then some p else none
  closed := by
    intro s b q found
    simp at found
  injective := by
    intro s t q first second
    by_cases emptyLeft : s = []
    · by_cases emptyRight : t = []
      · rw [emptyLeft, emptyRight]
      · simp [emptyRight] at second
    · simp [emptyLeft] at first

def empty : Layout where
  place _ := none
  closed := by
    intro s b q found
    cases found
  injective := by
    intro s t q found
    cases found

variable {t : List Bool}

theorem place_of_prefix {s : List Bool} (begins : s <+: t) :
    ∀ {p}, L.place t = some p → ∃ q, L.place s = some q := by
  obtain ⟨rest, rfl⟩ := begins
  induction rest using List.reverseRecOn with
  | nil =>
    intro p placed
    exact ⟨p, by simpa using placed⟩
  | append_singleton rest b ih =>
    intro p placed
    rw [← List.append_assoc] at placed
    obtain ⟨q, above⟩ := L.closed _ _ _ placed
    exact ih above

def graft (L : Layout) (s : List Bool) (b : Bool) (p : Ptr) (parent : ∃ q, L.place s = some q)
    (fresh : ∀ t, L.place t ≠ some p) : Layout where
  place := Function.update L.place (s ++ [b]) (some p)
  closed := by
    intro t c q found
    by_cases onPath : t = s ++ [b]
    · exact ⟨p, by rw [onPath, Function.update_self]⟩
    rw [Function.update_of_ne onPath]
    by_cases here : t ++ [c] = s ++ [b]
    · rw [(List.append_inj' here rfl).1]
      exact parent
    · rw [Function.update_of_ne here] at found
      exact L.closed t c q found
  injective := by
    intro t u q first second
    by_cases atFirst : t = s ++ [b]
    · by_cases atSecond : u = s ++ [b]
      · rw [atFirst, atSecond]
      · rw [atFirst, Function.update_self] at first
        rw [Function.update_of_ne atSecond] at second
        cases first
        exact absurd second (fresh u)
    · rw [Function.update_of_ne atFirst] at first
      by_cases atSecond : u = s ++ [b]
      · rw [atSecond, Function.update_self] at second
        cases second
        exact absurd first (fresh t)
      · rw [Function.update_of_ne atSecond] at second
        exact L.injective t u q first second

def prune (L : Layout) (s : List Bool) (leaf : ∀ b, L.place (s ++ [b]) = none) : Layout where
  place := Function.update L.place s none
  closed := by
    intro t c q found
    by_cases gone : t ++ [c] = s
    · rw [gone, Function.update_self] at found
      cases found
    rw [Function.update_of_ne gone] at found
    by_cases onLeaf : t = s
    · rw [onLeaf, leaf c] at found
      cases found
    · rw [Function.update_of_ne onLeaf]
      exact L.closed t c q found
  injective := by
    intro t u q first second
    by_cases atFirst : t = s
    · rw [atFirst, Function.update_self] at first
      cases first
    rw [Function.update_of_ne atFirst] at first
    by_cases atSecond : u = s
    · rw [atSecond, Function.update_self] at second
      cases second
    · rw [Function.update_of_ne atSecond] at second
      exact L.injective t u q first second

@[simp]
theorem graft_place_self (s : List Bool) (b : Bool) (p : Ptr) (parent : ∃ q, L.place s = some q)
    (fresh : ∀ t, L.place t ≠ some p) :
    (L.graft s b p parent fresh).place (s ++ [b]) = some p :=
  Function.update_self ..

theorem graft_place_ne {s : List Bool} {b : Bool} {p : Ptr}
    (parent : ∃ q, L.place s = some q) (fresh : ∀ t, L.place t ≠ some p)
    (other : t ≠ s ++ [b]) :
    (L.graft s b p parent fresh).place t = L.place t :=
  Function.update_of_ne other ..

@[simp]
theorem prune_place_self (s : List Bool) (leaf : ∀ b, L.place (s ++ [b]) = none) :
    (L.prune s leaf).place s = none :=
  Function.update_self ..

theorem prune_place_ne {s : List Bool} (leaf : ∀ b, L.place (s ++ [b]) = none)
    (other : t ≠ s) : (L.prune s leaf).place t = L.place t :=
  Function.update_of_ne other ..

/-- `after` keeps every placed node and adds only nodes on the way to `s`. -/
structure Grows (before after : Layout) (s : List Bool) : Prop where
  keeps : ∀ t p, before.place t = some p → after.place t = some p
  onPath : ∀ t p, after.place t = some p → before.place t = some p ∨ t <+: s

/-- `after` loses only nodes on the way to `s`, and never the root. -/
structure Shrinks (before after : Layout) (s : List Bool) : Prop where
  keeps : ∀ t p, before.place t = some p → ¬ t <+: s → after.place t = some p
  from_before : ∀ t p, after.place t = some p → before.place t = some p
  root : after.place [] = before.place []

theorem Grows.refl (L : Layout) (s : List Bool) : Grows L L s where
  keeps := fun _ _ placed => placed
  onPath := fun _ _ placed => Or.inl placed

theorem Shrinks.refl (L : Layout) (s : List Bool) : Shrinks L L s where
  keeps := fun _ _ placed _ => placed
  from_before := fun _ _ placed => placed
  root := rfl

end Layout

variable {α : Type}

/-- What the node placed for `s` at address `p` must hold. -/
structure NodeOk (L : Layout) (m : BitMap α) (s : List Bool) (node : BstNode α) : Prop where
  parent : L.place s.dropLast = some node.parent
  left : node.left = L.place (s ++ [false])
  right : node.right = L.place (s ++ [true])
  priv : node.priv = m.lookup s
  idle : m.lookup s = none → node.ops = none
  depth : node.prefixBits = s.length
  size : node.prefixSize = prefixSize s.length
  bytes : node.prefixBytes = packBits s

structure Stored (heap : Heap (BstNode α)) (L : Layout) (m : BitMap α) : Prop where
  node :
    ∀ s p, L.place s = some p →
      ∃ node, heap.get? p = some node ∧ NodeOk L m s node
  support : ∀ s value, m.lookup s = some value → ∃ p, L.place s = some p

structure Represents (tree : Bst α) (L : Layout) (m : BitMap α) : Prop
    extends Stored tree.heap L m where
  root : tree.root = L.place []
  entries : tree.entries = UInt32.ofNat m.keys.card

variable {L : Layout} {m : BitMap α} {key : List UInt8} {s : List Bool}
    {bits : Nat} {node : BstNode α}

theorem NodeOk.child (ok : NodeOk L m s node) (b : Bool) :
    (if b then node.right else node.left) = L.place (s ++ [b]) := by
  cases b with
  | false => exact ok.left
  | true => exact ok.right

theorem NodeOk.childless_iff (ok : NodeOk L m s node) : (node.left = none ∧ node.right = none) ↔
      ∀ b, L.place (s ++ [b]) = none := by
  rw [ok.left, ok.right, Bool.forall_bool]

theorem bstInit_represents : Represents (bstInit : Bst α) Layout.empty ∅ where
  node := by
    intro s p placed
    cases placed
  support := by
    intro s value found
    simp at found
  root := rfl
  entries := by
    simp [bstInit]

variable {heap : Heap (BstNode α)}

theorem Stored.place_ne_next (stored : Stored heap L m) (s : List Bool) :
    L.place s ≠ some heap.next := by
  intro placed
  obtain ⟨node, live, _⟩ := stored.node s heap.next placed
  rw [Heap.get?_next] at live
  cases live

/-! ## Looking bits up -/

theorem checkBit_of_lt {i : Nat} (within : i < 8 * key.length) :
    checkBit key i = .ok (bitAt key i) := by
  have bound : i / 8 < key.length := by omega
  simp only [checkBit, prefixByte, List.getElem?_eq_getElem bound]
  rw [byteBit_eq_mask]
  simp [bitAt, List.getD, bound]

/-- An active node for `s` that the match callback accepts. -/
def Hit (heap : Heap (BstNode α)) (L : Layout)
    (matchFn : Option (BstNode α → Bool)) (s : List Bool) : Prop :=
  ∃ p node, L.place s = some p ∧ heap.get? p = some node ∧
    (node.priv.isSome && accepts matchFn node) = true

theorem hit_iff (matchFn : Option (BstNode α → Bool)) {p : Ptr}
    (placed : L.place s = some p) (live : heap.get? p = some node) :
    Hit heap L matchFn s ↔ (node.priv.isSome && accepts matchFn node) = true := by
  constructor
  · rintro ⟨q, other, otherPlaced, otherLive, accepted⟩
    rw [placed] at otherPlaced
    cases otherPlaced
    rw [live] at otherLive
    cases otherLive
    exact accepted
  · intro accepted
    exact ⟨p, node, placed, live, accepted⟩

theorem Stored.hit_none_iff (stored : Stored heap L m) (s : List Bool) :
    Hit heap L none s ↔ s ∈ m := by
  constructor
  · rintro ⟨p, node, placed, live, accepted⟩
    obtain ⟨same, sameLive, ok⟩ := stored.node s p placed
    rw [live] at sameLive
    cases sameLive
    rw [← Finmap.lookup_isSome, ← ok.priv]
    simpa [accepts] using accepted
  · intro member
    obtain ⟨value, found⟩ := Finmap.mem_iff.mp member
    obtain ⟨p, placed⟩ := stored.support s value found
    obtain ⟨node, live, ok⟩ := stored.node s p placed
    exact ⟨p, node, placed, live, by simp [accepts, ok.priv, found]⟩

/-- `prev` after the rounds for the depths `d` to `e`: the deepest hit among
them, or what it was before. -/
def LastHit (heap : Heap (BstNode α)) (L : Layout) (key : List UInt8)
    (matchFn : Option (BstNode α → Bool)) (d e : Nat)
    (before after : Option Ptr) : Prop :=
  (after = before ∧
      ∀ i, d ≤ i → i ≤ e → ¬ Hit heap L matchFn (takeBits key i)) ∨
    ∃ j, d ≤ j ∧ j ≤ e ∧ Hit heap L matchFn (takeBits key j) ∧ after = L.place (takeBits key j) ∧
      ∀ i, j < i → i ≤ e → ¬ Hit heap L matchFn (takeBits key i)

theorem lastHit_single (matchFn : Option (BstNode α → Bool)) {d : Nat}
    {p : Ptr} (before : Option Ptr)
    (placed : L.place (takeBits key d) = some p)
    (live : heap.get? p = some node) :
    LastHit heap L key matchFn d d before
      (if node.priv.isSome && accepts matchFn node then some p
        else before) := by
  have decided := hit_iff matchFn placed live
  by_cases accepted : (node.priv.isSome && accepts matchFn node) = true
  · refine Or.inr ⟨d, le_rfl, le_rfl, decided.mpr accepted, ?_, ?_⟩
    · rw [if_pos accepted, placed]
    · intro i above below
      omega
  refine Or.inl ⟨by rw [if_neg accepted], ?_⟩
  intro i above below
  have same : i = d := Nat.le_antisymm below above
  rw [same]
  exact fun hit => accepted (decided.mp hit)

theorem LastHit.trans {matchFn : Option (BstNode α → Bool)} {d e f : Nat}
    {first second third : Option Ptr} (ordered : d ≤ e) (later : e < f)
    (left : LastHit heap L key matchFn d e first second)
    (right : LastHit heap L key matchFn (e + 1) f second third) :
    LastHit heap L key matchFn d f first third := by
  rcases right with ⟨rfl, silent⟩ | ⟨j, above, below, hit, at_j, after⟩
  · rcases left with ⟨rfl, quiet⟩ | ⟨j, above, below, hit, at_j, after⟩
    · refine Or.inl ⟨rfl, ?_⟩
      intro i low high
      by_cases early : i ≤ e
      · exact quiet i low early
      · exact silent i (by omega) high
    refine Or.inr ⟨j, above, by omega, hit, at_j, ?_⟩
    intro i low high
    by_cases early : i ≤ e
    · exact after i low early
    · exact silent i (by omega) high
  · exact Or.inr ⟨j, by omega, below, hit, at_j, after⟩

/-- The descent follows the bits of the key and stops where no child is left
or the wanted length is reached. -/
theorem Stored.find_spec (stored : Stored heap L m)
    (long : bits ≤ 8 * key.length) (matchFn : Option (BstNode α → Bool)) :
    ∀ fuel d p before, L.place (takeBits key d) = some p → d ≤ bits → bits - d < fuel →
      ∃ e q after, bstNodeFindLongestPrefix heap key bits matchFn fuel p before = .ok (q, after) ∧
          d ≤ e ∧ e ≤ bits ∧ L.place (takeBits key e) = some q ∧
          (e = bits ∨ L.place (takeBits key (e + 1)) = none) ∧
          LastHit heap L key matchFn d e before after := by
  intro fuel
  induction fuel with
  | zero =>
    intro d p before _ _ short
    omega
  | succ fuel ih =>
    intro d p before placed shallow enough
    obtain ⟨node, live, ok⟩ := stored.node _ p placed
    have depth : node.prefixBits = d := by simpa using ok.depth
    have single := lastHit_single matchFn before placed live
    by_cases stop : bits = 0 ∨ d = bits
    · refine ⟨d, p, _, ?_, le_rfl, shallow, placed, ?_, single⟩
      · simp only [bstNodeFindLongestPrefix, Heap.read_of_live live, ok_bind, depth, if_pos stop,
          pure_eq_ok]
      · left
        omega
    have inKey : d < 8 * key.length := by omega
    have goesOn : bstNodeFindLongestPrefix heap key bits matchFn (fuel + 1) p before =
          (L.place (takeBits key (d + 1))).elim
            (.ok (p, if node.priv.isSome && accepts matchFn node then
              some p else before))
            fun child =>
              bstNodeFindLongestPrefix heap key bits matchFn fuel child
                (if node.priv.isSome && accepts matchFn node then
                  some p else before) := by
      rw [takeBits_succ, ← ok.child]
      simp only [bstNodeFindLongestPrefix, Heap.read_of_live live, ok_bind, if_neg stop, pure_eq_ok,
        depth, checkBit_of_lt inKey]
      cases (if bitAt key d then node.right else node.left) <;> rfl
    cases next : L.place (takeBits key (d + 1)) with
    | none =>
      refine ⟨d, p, _, ?_, le_rfl, shallow, placed, Or.inr next, single⟩
      rw [goesOn, next, Option.elim_none]
    | some child =>
      obtain ⟨e, q, after, run, lower, upper, found, final, last⟩ :=
        ih (d + 1) child _ next (by omega) (by omega)
      refine ⟨e, q, after, ?_, by omega, upper, found, final, single.trans le_rfl (by omega) last⟩
      rw [goesOn, next]
      exact run

/-- The node for the longest hit among the first bits of the key, or null
when nothing is hit. -/
def LongestHit (heap : Heap (BstNode α)) (L : Layout) (key : List UInt8)
    (matchFn : Option (BstNode α → Bool)) (bits : Nat)
    (result : Option Ptr) : Prop :=
  LastHit heap L key matchFn 0 bits none result

theorem Represents.find_match {tree : Bst α} (rep : Represents tree L m)
    (long : bits ≤ 8 * key.length) (matchFn : Option (BstNode α → Bool)) :
    ∃ result, bstFindLongestPrefixMatch tree key bits matchFn = .ok result ∧
        LongestHit tree.heap L key matchFn bits result := by
  cases root : L.place [] with
  | none =>
    refine ⟨none, ?_, Or.inl ⟨rfl, ?_⟩⟩
    · simp only [bstFindLongestPrefixMatch, rep.root, root, pure_eq_ok]
    · rintro i _ _ ⟨p, node, placed, _⟩
      obtain ⟨q, above⟩ := Layout.place_of_prefix (List.nil_prefix) placed
      rw [root] at above
      cases above
  | some p =>
    obtain ⟨e, q, after, run, _, upper, found, final, last⟩ :=
      rep.toStored.find_spec long matchFn (findFuel bits) 0 p none
        (by simpa using root) (Nat.zero_le bits)
        (by simp [findFuel])
    obtain ⟨node, live, ok⟩ := rep.node _ q found
    -- Below the node where the loop breaks nothing is placed on the path.
    have silent : ∀ i, e < i → i ≤ bits → ¬ Hit tree.heap L matchFn (takeBits key i) := by
      rintro i above below ⟨r, other, placed, _⟩
      rcases final with whole | absent
      · omega
      · obtain ⟨s, between⟩ := Layout.place_of_prefix
            (takeBits_isPrefixOf key (show e + 1 ≤ i from above)) placed
        rw [absent] at between
        cases between
    have whole : LastHit tree.heap L key matchFn 0 bits none after := by
      rcases Nat.lt_or_eq_of_le upper with shorter | rfl
      · exact last.trans (Nat.zero_le e) shorter (Or.inl ⟨rfl, silent⟩)
      · exact last
    by_cases accepted : (node.priv.isSome && accepts matchFn node) = true
    · refine ⟨some q, ?_, ?_⟩
      · simp only [bstFindLongestPrefixMatch, rep.root, root, run, ok_bind, Heap.read_of_live live,
          if_pos accepted, pure_eq_ok]
      · refine Or.inr ⟨e, Nat.zero_le e, upper, ?_, found.symm, silent⟩
        exact (hit_iff _ found live).mpr accepted
    · refine ⟨after, ?_, whole⟩
      simp only [bstFindLongestPrefixMatch, rep.root, root, run, ok_bind, Heap.read_of_live live,
        if_neg accepted, pure_eq_ok]

/-- Without a callback: the longest key of the map among the first bits. -/
theorem Represents.find {tree : Bst α} (rep : Represents tree L m) (long : bits ≤ 8 * key.length) :
    (bstFindLongestPrefix tree key bits = .ok none ∧
        ∀ s, s <+: takeBits key bits → s ∉ m) ∨
      ∃ s p, bstFindLongestPrefix tree key bits = .ok (some p) ∧ L.place s = some p ∧
        IsLongest (· ∈ m) (takeBits key bits) s := by
  obtain ⟨result, run, longest⟩ := rep.find_match long none
  rcases longest with ⟨rfl, quiet⟩ | ⟨j, _, high, hit, rfl, quiet⟩
  · refine Or.inl ⟨run, ?_⟩
    intro s begins member
    obtain ⟨short, same⟩ := eq_takeBits_of_prefix begins
    rw [same] at member
    exact quiet s.length (Nat.zero_le _) short ((rep.hit_none_iff _).mpr member)
  obtain ⟨p, node, placed, _, _⟩ := id hit
  refine Or.inr ⟨takeBits key j, p, by rw [← placed]; exact run, placed,
    takeBits_isPrefixOf key high,
    (rep.hit_none_iff _).mp hit, ?_⟩
  intro t begins member
  obtain ⟨short, same⟩ := eq_takeBits_of_prefix begins
  rw [takeBits_length]
  by_contra longer
  rw [same] at member
  exact quiet t.length (by omega) short ((rep.hit_none_iff _).mpr member)

end Serval
