import Serval.Bst.Release

/-!
# Inserting entries

With `init` succeeding, an insertion into a trie with entries adds its key to
the map, or changes nothing when the key is taken or an allocation fails. When
the entry counter is zero the insertion starts from a new root and drops
whatever the old one held.
-/

namespace Serval

open Serval.Support

variable {α : Type}

@[simp]
theorem BstNode.setChild_prefixBits (node : BstNode α) (goRight : Bool) (n : Ptr) :
    (node.setChild goRight n).prefixBits = node.prefixBits := by
  cases goRight <;> rfl

@[simp]
theorem BstNode.setChild_setChild (node : BstNode α) (goRight : Bool) (n : Ptr) :
    (node.setChild goRight n).setChild goRight n = node.setChild goRight n := by
  cases goRight <;> rfl

theorem prefixSize_eq (bits : Nat) : prefixSize bits = (bits + 7) / 8 := by
  unfold prefixSize prefixByte
  split <;> omega

variable {key : List UInt8} {bits : Nat} {b : Bool} {p q : Ptr} {held : α}

/-- The bytes a new node stores are the packed bits of its path: the bytes of
the key, the last one masked. -/
theorem masked_bytes_eq_packBits (within : bits ≤ 8 * key.length) : (if bits % 8 ≠ 0 then
        (key.take (prefixSize bits)).modify (prefixSize bits - 1)
          (· &&& highMask (bits % 8))
      else key.take (prefixSize bits)) =
      packBits (takeBits key bits) := by
  have enough : prefixSize bits ≤ key.length := by
    rw [prefixSize_eq]
    omega
  apply bytes_ext
  · rw [packBits_length, ← prefixSize_eq]
    split <;> simp [enough]
  · intro i inside
    have small : i / 8 < prefixSize bits := by
      split at inside <;> simp [Nat.min_eq_left enough] at inside <;> omega
    rw [bitAt_packBits]
    have whole : bitAt (key.take (prefixSize bits)) i = bitAt key i := by
      simp [bitAt, List.getD, small]
    by_cases ragged : bits % 8 ≠ 0
    · rw [if_pos ragged]
      have size := prefixSize_eq bits
      by_cases last : i / 8 = prefixSize bits - 1
      · have byteHere : ((key.take (prefixSize bits)).modify (prefixSize bits - 1)
                (· &&& highMask (bits % 8))).getD (i / 8) 0 =
              key.getD (i / 8) 0 &&& highMask (bits % 8) := by
          have positive : 0 < prefixSize bits := by omega
          have inside : prefixSize bits - 1 < key.length := by omega
          simp [List.getD, last, positive, inside]
        unfold bitAt
        rw [byteHere, byteBit_and, byteBit_highMask (Nat.mod_lt _ (by decide))
            (Nat.mod_lt _ (by decide))]
        by_cases early : i < bits
        · rw [takeBits_getD key early]
          have inMask : i % 8 < bits % 8 := by omega
          simp [bitAt, inMask]
        have beyond : (takeBits key bits).length ≤ i := by simpa using Nat.le_of_not_lt early
        rw [List.getD_eq_default (takeBits key bits) false beyond]
        have outside : ¬ i % 8 < bits % 8 := by omega
        simp [outside]
      · have early : i < bits := by omega
        rw [takeBits_getD key early, ← whole]
        simp [bitAt, List.getD, Ne.symm last]
    · rw [if_neg ragged, whole, takeBits_getD key]
      have size := prefixSize_eq bits
      omega

variable {L : Layout} {m : BitMap α} {s : List Bool}

theorem Layout.vacant_below (vacant : L.place s = none) (b : Bool) : L.place (s ++ [b]) = none := by
  cases below : L.place (s ++ [b]) with
  | none => rfl
  | some p =>
    obtain ⟨q, above⟩ := L.closed s b p below
    rw [vacant] at above
    cases above

variable {heap : Heap (BstNode α)} {tree : Bst α}

theorem Stored.vacant_idle (stored : Stored heap L m)
    (vacant : L.place s = none) : m.lookup s = none := by
  cases held : m.lookup s with
  | none => rfl
  | some value =>
    obtain ⟨p, placed⟩ := stored.support s value held
    rw [vacant] at placed
    cases placed

theorem Stored.leaf_ok (stored : Stored heap L m)
    (placed : L.place s = some q) (vacant : L.place (s ++ [b]) = none) :
    NodeOk
      (L.graft s b heap.next ⟨q, placed⟩ stored.place_ne_next) m (s ++ [b])
      { parent := q, left := none, right := none, ops := none, priv := none,
        prefixBits := s.length + 1, prefixSize := prefixSize (s.length + 1),
        prefixBytes := packBits (s ++ [b]) } := by
  have childless (c : Bool) : (L.graft s b heap.next ⟨q, placed⟩ stored.place_ne_next).place
        (s ++ [b] ++ [c]) = none := by
    rw [Layout.graft_place_ne _ _ (snoc_ne_self _ c)]
    exact Layout.vacant_below vacant c
  exact {
    parent := by
      rw [List.dropLast_concat, Layout.graft_place_ne _ _ (snoc_ne_self _ _).symm]
      exact placed
    left := (childless false).symm
    right := (childless true).symm
    priv := (stored.vacant_idle vacant).symm
    idle := fun _ => rfl
    depth := by simp
    size := by simp
    bytes := rfl }

theorem Stored.graft (stored : Stored heap L m) (placed : L.place s = some q)
    (vacant : L.place (s ++ [b]) = none) {above leaf : BstNode α}
    (live : heap.get? q = some above) (ok : NodeOk L m s above)
    (leafOk :
      NodeOk (L.graft s b heap.next ⟨q, placed⟩ stored.place_ne_next) m
        (s ++ [b]) leaf) :
    Stored
      ((heap.set q (some (above.setChild b heap.next))).alloc leaf)
      (L.graft s b heap.next ⟨q, placed⟩ stored.place_ne_next) m where
  node := by
    intro t p found
    by_cases new : t = s ++ [b]
    · subst new
      rw [Layout.graft_place_self] at found
      cases found
      exact ⟨leaf, Heap.get?_set_alloc_next .., leafOk⟩
    rw [Layout.graft_place_ne _ _ new] at found
    have apart : p ≠ heap.next := by
      rintro rfl
      exact stored.place_ne_next t found
    rw [Heap.get?_alloc_of_ne _ (by simpa using apart)]
    by_cases atParent : t = s
    · subst atParent
      rw [placed] at found
      cases found
      refine ⟨_, Heap.get?_set_self _ live, ok.relink (fun _ => Layout.graft_place_ne _ _) ?_⟩
      exact Layout.graft_place_self ..
    have elsewhere : p ≠ q := by
      rintro rfl
      exact atParent (L.injective _ _ _ found placed)
    obtain ⟨other, otherLive, otherOk⟩ := stored.node t p found
    have notChild : t.dropLast ≠ s ++ [b] := by
      intro same
      have above := otherOk.parent
      rw [same, vacant] at above
      cases above
    rw [Heap.get?_set_ne _ elsewhere]
    exact ⟨other, otherLive,
      otherOk.elsewhere (fun _ => Layout.graft_place_ne _ _) atParent notChild⟩
  support := by
    intro t value found
    obtain ⟨p, here⟩ := stored.support t value found
    refine ⟨p, ?_⟩
    rw [Layout.graft_place_ne]
    · exact here
    · rintro rfl
      rw [vacant] at here
      cases here

/-- One round of `bst_create_node`, at the end of the path read so far. -/
theorem Stored.create_node (stored : Stored heap L m) {d : Nat}
    (inKey : d < 8 * key.length) (placed : L.place (takeBits key d) = some q)
    (vacant : L.place (takeBits key (d + 1)) = none) :
    ∃ (heap' : Heap (BstNode α)) (above : BstNode α),
      bstCreateNode heap q key (prefixSize (d + 1)) true = .ok (some heap.next, heap') ∧
        heap'.get? q = some (above.setChild (bitAt key d) heap.next) ∧ above.prefixBits = d ∧
        Stored heap'
          (L.graft (takeBits key d) (bitAt key d) heap.next ⟨q, placed⟩
            stored.place_ne_next) m := by
  obtain ⟨above, live, ok⟩ := stored.node _ q placed
  have depth : above.prefixBits = d := by simpa using ok.depth
  have long : ¬ key.length < prefixSize (d + 1) := by
    rw [prefixSize_eq]
    omega
  have bytesEq := masked_bytes_eq_packBits (show d + 1 ≤ 8 * key.length by omega)
  have old : q ≠ heap.next := Nat.ne_of_lt (Heap.lt_next_of_get? live)
  rw [takeBits_succ] at vacant bytesEq
  have leafOk := stored.leaf_ok placed vacant
  rw [takeBits_length] at leafOk
  refine ⟨_, above, ?_, ?_, depth, stored.graft placed vacant live ok leafOk⟩
  · simp only [bstCreateNode, Bool.not_true, Bool.false_eq_true, if_false, pure_eq_ok, ok_bind,
      Heap.read_of_live live, depth,
      checkBit_of_lt inKey, Heap.write_of_live _ live, if_neg long, bytesEq]
  · rw [Heap.get?_alloc_of_ne _ (by simpa using old), Heap.get?_set_self _ live]

theorem Layout.Grows.of_graft {L' : Layout} {d : Nat}
    (parent : ∃ q, L.place (takeBits key d) = some q)
    (fresh : ∀ t, L.place t ≠ some p) (below : d + 1 ≤ bits)
    (vacant : L.place (takeBits key (d + 1)) = none)
    (rest :
      Layout.Grows
        (L.graft (takeBits key d) (bitAt key d) p parent fresh) L'
        (takeBits key bits)) :
    Layout.Grows L L' (takeBits key bits) where
  keeps := by
    intro t q placed
    apply rest.keeps
    rw [Layout.graft_place_ne]
    · exact placed
    · rintro rfl
      rw [← takeBits_succ, vacant] at placed
      cases placed
  onPath := by
    intro t q placed
    rcases rest.onPath t q placed with grafted | begins
    · by_cases new : t = takeBits key d ++ [bitAt key d]
      · right
        rw [new, ← takeBits_succ]
        exact takeBits_isPrefixOf key below
      · rw [Layout.graft_place_ne _ _ new] at grafted
        exact Or.inl grafted
    · exact Or.inr begins

/-- The loop of `bst_node_new` builds the rest of the path, as far as there is
memory. -/
theorem Stored.node_new (long : bits ≤ 8 * key.length) (alloc : Nat → Bool) :
    ∀ {fuel d : Nat} {heap : Heap (BstNode α)} {L : Layout} {q : Ptr},
      Stored heap L m → L.place (takeBits key d) = some q →
      L.place (takeBits key (d + 1)) = none → d < bits → bits - d ≤ fuel →
      ∃ created heap' L', bstNodeNew key bits alloc fuel heap q = .ok (created, heap') ∧
          Stored heap' L' m ∧ (∀ p, created = some p → L'.place (takeBits key bits) = some p) ∧
          Layout.Grows L L' (takeBits key bits) ∧ ((∀ d, alloc d = true) → created ≠ none) := by
  intro fuel
  induction fuel with
  | zero =>
    intro d heap L q _ _ _ below enough
    omega
  | succ fuel ih =>
    intro d heap L q stored placed vacant below enough
    have inKey : d < 8 * key.length := by omega
    obtain ⟨first, live, ok⟩ := stored.node _ q placed
    have depth : first.prefixBits = d := by simpa using ok.depth
    cases enoughMemory : alloc (d + 1) with
    | false =>
      refine ⟨none, heap, L, ?_, stored, ?_, Layout.Grows.refl L _, ?_⟩
      · simp [bstNodeNew, Heap.read_of_live live, depth, enoughMemory, bstCreateNode]
      · intro p impossible
        cases impossible
      · intro succeed
        rw [succeed] at enoughMemory
        cases enoughMemory
    | true =>
    obtain ⟨heap', above, created, parentLive, aboveDepth, stored'⟩ :=
      stored.create_node inKey placed vacant
    -- The loop stores the child into the parent a second time.
    have storedTwice : heap'.write q ((above.setChild (bitAt key d) heap.next).setChild
              (bitAt key d) heap.next) =
          .ok heap' := by
      rw [Heap.write_of_live _ parentLive, BstNode.setChild_setChild, Heap.set_of_live parentLive]
    have here : (L.graft (takeBits key d) (bitAt key d) heap.next ⟨q, placed⟩
          stored.place_ne_next).place (takeBits key (d + 1)) = some heap.next := by
      rw [takeBits_succ, Layout.graft_place_self]
    by_cases more : d + 1 ≠ bits
    · have vacantBelow : (L.graft (takeBits key d) (bitAt key d) heap.next ⟨q, placed⟩
            stored.place_ne_next).place (takeBits key (d + 1 + 1)) =
              none := by
        rw [takeBits_succ key (d + 1), Layout.graft_place_ne]
        · exact Layout.vacant_below vacant _
        · rw [takeBits_succ key d]
          exact snoc_ne_self _ _
      obtain ⟨p, heap'', L', run, final, atEnd, grows, whole⟩ := ih stored' here vacantBelow
          (by omega) (by omega)
      refine ⟨p, heap'', L', ?_, final, atEnd, grows.of_graft _ _ below vacant, whole⟩
      simp only [bstNodeNew, Heap.read_of_live live, ok_bind, depth, enoughMemory, created,
        Heap.read_of_live parentLive,
        BstNode.setChild_prefixBits, aboveDepth,
        checkBit_of_lt inKey, storedTwice, if_pos more]
      exact run
    · have whole : d + 1 = bits := by omega
      refine ⟨some heap.next, heap', _, ?_, stored', ?_, ?_, by simp⟩
      · simp only [bstNodeNew, Heap.read_of_live live, ok_bind, depth, enoughMemory, created,
          Heap.read_of_live parentLive,
          BstNode.setChild_prefixBits, aboveDepth,
          checkBit_of_lt inKey, storedTwice, if_neg more, pure_eq_ok]
      · rintro p ⟨⟩
        rw [← whole]
        exact here
      · exact (Layout.Grows.refl _ _).of_graft _ _ below vacant

theorem Stored.node_init (stored : Stored heap L m)
    (placed : L.place s = some p) (idle : m.lookup s = none)
    (ops : Option (BstNodeOps α)) (value : α)
    (initOk : ∀ f, ops.bind (·.init) = some f → 0 ≤ f value) :
    ∃ heap', bstNodeInit heap p ops (some value) = .ok (true, heap') ∧
      Stored heap' L (m.insert s value) := by
  obtain ⟨node, live, ok⟩ := stored.node s p placed
  have noOps : ¬ node.ops.isSome = true := by simp [ok.idle idle]
  have noPriv : ¬ node.priv.isSome = true := by simp [ok.priv, idle]
  refine ⟨heap.set p (some { node with ops, priv := some value }), ?_, ?_⟩
  · simp only [bstNodeInit, Heap.read_of_live live, ok_bind, if_neg noOps, if_neg noPriv,
      Heap.write_of_live _ live]
    cases init : ops.bind (·.init) with
    | none => rfl
    | some f => simp [initOk f init]
  · refine stored.set_node placed ?_ ?_
    · exact { ok with
        priv := (Finmap.lookup_insert m).symm
        idle := by simp }
    · intro t different
      exact Finmap.lookup_insert_of_ne m different

theorem Stored.node_init_taken (stored : Stored heap L m)
    (placed : L.place s = some p) (taken : m.lookup s = some held)
    (ops : Option (BstNodeOps α)) (priv : Option α) :
    bstNodeInit heap p ops priv = .ok (false, heap) := by
  obtain ⟨node, live, ok⟩ := stored.node s p placed
  have active : node.priv.isSome = true := by simp [ok.priv, taken]
  simp only [bstNodeInit, Heap.read_of_live live, ok_bind, if_pos active, pure_eq_ok]
  split <;> rfl

/-- Inserting a key that is free: an allocation that fails leaves the map as
it was. -/
theorem Stored.insert_free (stored : Stored heap L m) {root : Ptr}
    (rooted : L.place [] = some root) (long : bits ≤ 8 * key.length)
    (idle : m.lookup (takeBits key bits) = none) (ops : Option (BstNodeOps α))
    (value : α) (initOk : ∀ f, ops.bind (·.init) = some f → 0 ≤ f value)
    (alloc : Nat → Bool) :
    ∃ created heap' L', bstNodeInsertPrefix heap root ops (some value) key bits alloc =
          .ok (created, heap') ∧
        (created = none ∧ Stored heap' L' m ∨
          ∃ p, created = some p ∧ Stored heap' L' (m.insert (takeBits key bits) value) ∧
            L'.place (takeBits key bits) = some p) ∧ Layout.Grows L L' (takeBits key bits) ∧
        ((∀ d, alloc d = true) → created ≠ none) := by
  obtain ⟨e, q, after, run, _, upper, found, final, _⟩ :=
    stored.find_spec long none (findFuel bits) 0 root none
      (by simpa using rooted) (Nat.zero_le bits) (by simp [findFuel])
  obtain ⟨node, live, ok⟩ := stored.node _ q found
  have depth : node.prefixBits = e := by simpa using ok.depth
  by_cases shallow : e < bits
  · have vacant : L.place (takeBits key (e + 1)) = none := by
      rcases final with whole | vacant
      · omega
      · exact vacant
    obtain ⟨created, grown, L', built, stored', atEnd, grows, whole⟩ :=
      stored.node_new long alloc found vacant shallow
        (Nat.sub_le bits e)
    cases created with
    | none =>
      refine ⟨none, grown, L', ?_, .inl ⟨rfl, stored'⟩, grows, whole⟩
      simp only [bstNodeInsertPrefix, run, ok_bind, Heap.read_of_live live, depth, if_pos shallow,
        built, pure_eq_ok]
    | some p =>
      obtain ⟨heap', filled, stored''⟩ := stored'.node_init (atEnd p rfl) idle ops value initOk
      refine ⟨some p, heap', L', ?_, .inr ⟨p, rfl, stored'', atEnd p rfl⟩, grows, whole⟩
      simp only [bstNodeInsertPrefix, run, ok_bind, Heap.read_of_live live, depth, if_pos shallow,
        built, filled, if_true, pure_eq_ok]
  · have whole : e = bits := by omega
    subst whole
    obtain ⟨heap', filled, stored'⟩ := stored.node_init found idle ops value initOk
    refine ⟨some q, heap', L, ?_, .inr ⟨q, rfl, stored', found⟩, Layout.Grows.refl L _, by simp⟩
    simp only [bstNodeInsertPrefix, run, ok_bind, Heap.read_of_live live, depth, if_neg shallow,
      filled, if_true, pure_eq_ok]

theorem Stored.insert_taken (stored : Stored heap L m) {root : Ptr}
    (rooted : L.place [] = some root) (long : bits ≤ 8 * key.length)
    (taken : m.lookup (takeBits key bits) = some held)
    (ops : Option (BstNodeOps α)) (priv : Option α) (alloc : Nat → Bool) :
    bstNodeInsertPrefix heap root ops priv key bits alloc = .ok (none, heap) := by
  obtain ⟨e, q, after, run, _, upper, found, final, _⟩ :=
    stored.find_spec long none (findFuel bits) 0 root none
      (by simpa using rooted) (Nat.zero_le bits) (by simp [findFuel])
  obtain ⟨node, live, ok⟩ := stored.node _ q found
  have depth : node.prefixBits = e := by simpa using ok.depth
  have whole : e = bits := by
    rcases final with whole | vacant
    · exact whole
    obtain ⟨p, placed⟩ := stored.support _ _ taken
    by_contra shorter
    obtain ⟨r, between⟩ := Layout.place_of_prefix
        (takeBits_isPrefixOf key (show e + 1 ≤ bits by omega)) placed
    rw [vacant] at between
    cases between
  subst whole
  simp only [bstNodeInsertPrefix, run, ok_bind, Heap.read_of_live live, depth, lt_irrefl, if_false,
    pure_eq_ok,
    stored.node_init_taken found taken ops priv, Bool.false_eq_true]

theorem freshRoot_stored (heap : Heap (BstNode α)) :
    Stored (heap.alloc (freshRoot heap.next)) (Layout.single heap.next)
      ∅ where
  node := by
    intro s p placed
    by_cases atRoot : s = []
    · subst atRoot
      simp only [Layout.single, if_true, Option.some.injEq] at placed
      subst placed
      refine ⟨_, Heap.get?_alloc_next heap _, ?_⟩
      exact {
        parent := by simp [Layout.single, freshRoot]
        left := by simp [Layout.single, freshRoot]
        right := by simp [Layout.single, freshRoot]
        priv := by simp [freshRoot]
        idle := fun _ => rfl
        depth := rfl
        size := rfl
        bytes := rfl }
    · simp [Layout.single, atRoot] at placed
  support := by
    intro s value found
    simp at found

theorem Represents.rooted (rep : Represents tree L m) (some_entry : m ≠ ∅) :
    ∃ root, L.place [] = some root := by
  have positive : m.keys.card ≠ 0 := by
    intro none
    exact some_entry ((BitMap.card_keys_eq_zero_iff m).mp none)
  obtain ⟨s, member⟩ := Finset.card_pos.mp (Nat.pos_of_ne_zero positive)
  obtain ⟨value, found⟩ := Finmap.mem_iff.mp (Finmap.mem_keys.mp member)
  obtain ⟨p, placed⟩ := rep.support s value found
  exact Layout.place_of_prefix List.nil_prefix placed

/-- What an insertion leaves of the map: everything, unless the entry counter
reads zero. -/
def survives (tree : Bst α) (m : BitMap α) : BitMap α :=
  if tree.entries = 0 then ∅ else m

theorem Represents.survives_entries (rep : Represents tree L m) :
    UInt32.ofNat (survives tree m).keys.card = tree.entries := by
  by_cases zero : tree.entries = 0
  · rw [survives, zero]
    rfl
  · rw [survives, if_neg zero, rep.entries]

/-- The end of an insertion: the key is there, or memory has run out. What was
there keeps its place, and a trie that has started over has nothing off the
path of the key. -/
structure InsertEnds (tree tree' : Bst α) (L L' : Layout) (m : BitMap α) (path : List Bool)
    (value : α) (alloc : Nat → Bool) (created : Option Ptr) : Prop where
  ended :
    created = none ∧ Represents tree' L' (survives tree m) ∧ tree'.entries = tree.entries ∨
      ∃ p, created = some p ∧ Represents tree' L' ((survives tree m).insert path value) ∧
        L'.place path = some p
  keeps : ∀ s q, s ∈ survives tree m → L.place s = some q → L'.place s = some q
  fresh : tree.entries = 0 → ∀ s q, L'.place s = some q → s <+: path
  whole : (∀ d, alloc d = true) → created ≠ none

section

variable (ops : Option (BstNodeOps α)) (value : α) {alloc : Nat → Bool}

/-- There is no memory for the root of a trie that starts over. -/
theorem insert_noRoot (L : Layout) (m : BitMap α) (zero : tree.entries = 0)
    (failed : alloc 0 = false) :
    ∃ created tree' L', bstInsertPrefix tree ops (some value) key bits alloc =
        .ok (created, tree') ∧
      InsertEnds tree tree' L L' m (takeBits key bits) value alloc created := by
  have none : survives tree m = ∅ := if_pos zero
  refine ⟨_, { tree with root := .none }, Layout.empty,
    by simp [bstInsertPrefix, zero, failed], .inl ⟨rfl, ?_, rfl⟩, ?_, ?_, ?_⟩
  · rw [none]
    exact {
      node := by
        intro s p placed
        cases placed
      support := by
        intro s other held
        simp at held
      root := rfl
      entries := by simp [zero] }
  · intro s q member
    rw [none] at member
    exact absurd member Finmap.notMem_empty
  · intro _ s q placed
    cases placed
  · intro succeed
    rw [succeed] at failed
    cases failed

variable (initOk : ∀ f, ops.bind (·.init) = some f → 0 ≤ f value)

include initOk

/-- The trie starts over with a new root. -/
theorem insert_newRoot (L : Layout) (m : BitMap α) (long : bits ≤ 8 * key.length)
    (zero : tree.entries = 0) (succeeded : alloc 0 = true) :
    ∃ created tree' L', bstInsertPrefix tree ops (some value) key bits alloc =
        .ok (created, tree') ∧
      InsertEnds tree tree' L L' m (takeBits key bits) value alloc created := by
  have none : survives tree m = ∅ := if_pos zero
  have rooted : (Layout.single tree.heap.next).place [] = some tree.heap.next := by
    simp [Layout.single]
  obtain ⟨created, heap', L', run, ended, grows, whole⟩ :=
    (freshRoot_stored tree.heap).insert_free rooted long (Finmap.lookup_empty _) ops value initOk
      alloc
  have keeps (s : List Bool) (q : Ptr) (member : s ∈ survives tree m) :
      L.place s = some q → L'.place s = some q := by
    rw [none] at member
    exact absurd member Finmap.notMem_empty
  have fresh (s : List Bool) (q : Ptr) (placed : L'.place s = some q) :
      s <+: takeBits key bits := by
    rcases grows.onPath s q placed with before | onPath
    · have atRoot : s = [] := by
        by_contra other
        simp [Layout.single, other] at before
      rw [atRoot]
      exact List.nil_prefix
    · exact onPath
  rcases ended with ⟨rfl, stored'⟩ | ⟨p, rfl, stored', atEnd⟩
  · refine ⟨_, { tree with heap := heap', root := some tree.heap.next }, L',
      by simp [bstInsertPrefix, zero, succeeded, run], .inl ⟨rfl, ?_, rfl⟩, keeps,
      fun _ => fresh, whole⟩
    rw [none]
    exact {
      toStored := stored'
      root := (grows.keeps [] _ rooted).symm
      entries := by simp [zero] }
  · refine ⟨_, { tree with
      heap := heap', root := some tree.heap.next, entries := tree.entries + 1 }, L',
      by simp [bstInsertPrefix, zero, succeeded, run], .inr ⟨p, rfl, ?_, atEnd⟩, keeps,
      fun _ => fresh, whole⟩
    rw [none]
    exact {
      toStored := stored'
      root := (grows.keeps [] _ rooted).symm
      entries := by
        rw [BitMap.card_keys_insert value (Finmap.lookup_empty _)]
        simp [zero] }

/-- The trie grows below the root it has. -/
theorem Represents.insert_below (rep : Represents tree L m) (long : bits ≤ 8 * key.length)
    (idle : m.lookup (takeBits key bits) = none) (filled : tree.entries ≠ 0) :
    ∃ created tree' L', bstInsertPrefix tree ops (some value) key bits alloc =
        .ok (created, tree') ∧
      InsertEnds tree tree' L L' m (takeBits key bits) value alloc created := by
  have all : survives tree m = m := if_neg filled
  have nonempty : m ≠ ∅ := by
    rintro rfl
    apply filled
    simpa using rep.entries
  obtain ⟨root, rooted⟩ := rep.rooted nonempty
  obtain ⟨created, heap', L', run, ended, grows, whole⟩ :=
    rep.toStored.insert_free rooted long idle ops value initOk alloc
  have rootKept : tree.root = L'.place [] := by
    rw [grows.keeps [] root rooted]
    exact rep.root.trans rooted
  rcases ended with ⟨rfl, stored'⟩ | ⟨p, rfl, stored', atEnd⟩
  · refine ⟨_, { tree with heap := heap' }, L',
      by simp [bstInsertPrefix, filled, rep.root, rooted, run], .inl ⟨rfl, ?_, rfl⟩,
      fun s q _ => grows.keeps s q, fun empty => absurd empty filled, whole⟩
    rw [all]
    exact {
      toStored := stored'
      root := rootKept
      entries := rep.entries }
  · refine ⟨_, { tree with heap := heap', entries := tree.entries + 1 }, L',
      by simp [bstInsertPrefix, filled, rep.root, rooted, run], .inr ⟨p, rfl, ?_, atEnd⟩,
      fun s q _ => grows.keeps s q, fun empty => absurd empty filled, whole⟩
    rw [all]
    exact {
      toStored := stored'
      root := rootKept
      entries := by
        rw [BitMap.card_keys_insert value idle, rep.entries, ofNat_succ] }

end

/-- Inserting a key that is free in what survives, with any allocations. -/
theorem Represents.insert_any (rep : Represents tree L m) (long : bits ≤ 8 * key.length)
    (idle : (survives tree m).lookup (takeBits key bits) = none)
    (ops : Option (BstNodeOps α)) (value : α)
    (initOk : ∀ f, ops.bind (·.init) = some f → 0 ≤ f value)
    (alloc : Nat → Bool) :
    ∃ created tree' L', bstInsertPrefix tree ops (some value) key bits alloc =
        .ok (created, tree') ∧
      InsertEnds tree tree' L L' m (takeBits key bits) value alloc created := by
  by_cases zero : tree.entries = 0
  · cases memory : alloc 0 with
    | false => exact insert_noRoot ops value L m zero memory
    | true => exact insert_newRoot ops value initOk L m long zero memory
  · rw [survives, if_neg zero] at idle
    exact rep.insert_below ops value initOk long idle zero

theorem Represents.insert_free (rep : Represents tree L m) (long : bits ≤ 8 * key.length)
    (idle : (survives tree m).lookup (takeBits key bits) = none)
    (ops : Option (BstNodeOps α)) (value : α)
    (initOk : ∀ f, ops.bind (·.init) = some f → 0 ≤ f value)
    (alloc : Nat → Bool) (succeed : ∀ d, alloc d = true) :
    ∃ p tree' L', bstInsertPrefix tree ops (some value) key bits alloc = .ok (some p, tree') ∧
        Represents tree' L'
          ((survives tree m).insert (takeBits key bits) value) ∧
        L'.place (takeBits key bits) = some p ∧
        (∀ s q, s ∈ survives tree m → L.place s = some q → L'.place s = some q) ∧
        (tree.entries = 0 →
          ∀ s q, L'.place s = some q → s <+: takeBits key bits) := by
  obtain ⟨created, tree', L', run, ended, keeps, fresh, whole⟩ :=
    rep.insert_any long idle ops value initOk alloc
  rcases ended with ⟨rfl, _⟩ | ⟨p, rfl, rep', placed⟩
  · exact absurd rfl (whole succeed)
  · exact ⟨p, tree', L', run, rep', placed, keeps, fresh⟩

theorem Represents.insert_taken (rep : Represents tree L m) (long : bits ≤ 8 * key.length)
    (taken : (survives tree m).lookup (takeBits key bits) = some held)
    (ops : Option (BstNodeOps α)) (priv : Option α) (alloc : Nat → Bool) :
    bstInsertPrefix tree ops priv key bits alloc = .ok (none, tree) := by
  unfold survives at taken
  by_cases zero : tree.entries = 0
  · simp [if_pos zero] at taken
  rw [if_neg zero] at taken
  obtain ⟨p, placed⟩ := rep.support _ _ taken
  obtain ⟨root, rooted⟩ := Layout.place_of_prefix (L := L) List.nil_prefix placed
  have same : { tree with root := some root, heap := tree.heap } = tree := by
    rw [← rep.root.trans rooted]
  simp [bstInsertPrefix, zero, rep.root, rooted,
    rep.toStored.insert_taken rooted long taken ops priv alloc]
  exact same

end Serval
