import Serval.Support.Serial
import Serval.Bst.Layout

/-!
# Removing entries

Orphaning a node erases its key from the map. Freeing a leaf takes it out of
the layout. Releasing a node does both and then frees the parents that are
left idle and childless; it never reaches a freed node unless the released
node is a root without children, which is its own parent.
-/

namespace Serval

open Serval.Support

variable {α : Type}

variable {L : Layout} {m : BitMap α} {s : List Bool} {b : Bool} {p : Ptr} {node : BstNode α}

theorem NodeOk.congr_map {m' : BitMap α} (same : m'.lookup s = m.lookup s)
    (ok : NodeOk L m s node) :
    NodeOk L m' s node :=
  { ok with
    priv := by rw [same, ok.priv]
    idle := by
      rw [same]
      exact ok.idle }

theorem Stored.set_node {heap : Heap (BstNode α)} {m' : BitMap α}
    (stored : Stored heap L m) (placed : L.place s = some p)
    (ok : NodeOk L m' s node) (agree : ∀ t, t ≠ s → m'.lookup t = m.lookup t) :
    Stored (heap.set p (some node)) L m' where
  node := by
    intro t q found
    by_cases same : t = s
    · subst same
      rw [placed] at found
      cases found
      obtain ⟨old, live, _⟩ := stored.node t p placed
      exact ⟨node, Heap.get?_set_self _ live, ok⟩
    have different : q ≠ p := by
      rintro rfl
      exact same (L.injective t s q found placed)
    obtain ⟨other, live, otherOk⟩ := stored.node t q found
    refine ⟨other, ?_, otherOk.congr_map (agree t same)⟩
    rw [Heap.get?_set_ne _ different, live]
  support := by
    intro t value found
    by_cases same : t = s
    · exact ⟨p, by rw [same, placed]⟩
    · rw [agree t same] at found
      exact stored.support t value found

variable {tree : Bst α}

/-- Orphaning the node of `s` erases `s`, whether or not it is active. -/
theorem Represents.orphan (rep : Represents tree L m) (placed : L.place s = some p) :
    ∃ tree', bstNodeOrphan tree p = .ok tree' ∧ Represents tree' L (m.erase s) := by
  obtain ⟨node, live, ok⟩ := rep.node s p placed
  cases held : m.lookup s with
  | none =>
    refine ⟨tree, ?_, ?_⟩
    · simp [bstNodeOrphan, Heap.read_of_live live, ok.priv, held]
    · rw [BitMap.erase_of_absent held]
      exact rep
  | some value =>
    have active : node.priv.isSome = true := by simp [ok.priv, held]
    refine ⟨_, by
      simp only [bstNodeOrphan, Heap.read_of_live live, ok_bind, if_pos active,
        Heap.write_of_live _ live, pure_eq_ok]; rfl, ?_⟩
    have idleOk : NodeOk L (m.erase s) s { node with ops := none, priv := none } :=
      { ok with
        priv := (Finmap.lookup_erase s m).symm
        idle := fun _ => rfl }
    exact {
      toStored := rep.toStored.set_node placed idleOk
        fun t different => Finmap.lookup_erase_ne different
      root := rep.root
      entries := by
        rw [rep.entries, ← BitMap.card_keys_erase held, ofNat_succ_sub_one] }

theorem snoc_ne_self (s : List Bool) (b : Bool) : s ++ [b] ≠ s := by
  intro same
  simpa using congrArg List.length same

/-- The parent of the one place where two layouts differ follows the change. -/
theorem NodeOk.relink {L' : Layout} {link : Option Ptr}
    (others : ∀ t, t ≠ s ++ [b] → L'.place t = L.place t)
    (here : L'.place (s ++ [b]) = link) (ok : NodeOk L m s node) :
    NodeOk L' m s
      (if b then { node with right := link } else { node with left := link }) := by
  have shorter : s.dropLast ≠ s ++ [b] := by
    intro same
    have lengths := congrArg List.length same
    simp at lengths
  have above : L'.place s.dropLast = some node.parent := (others _ shorter).trans ok.parent
  cases b with
  | true =>
    exact { ok with
      parent := above
      left := by rw [others _ (by simp)]; exact ok.left
      right := here.symm }
  | false =>
    exact { ok with
      parent := above
      left := here.symm
      right := by rw [others _ (by simp)]; exact ok.right }

/-- Nodes away from the change and its parent do not notice it. -/
theorem NodeOk.elsewhere {L' : Layout} {t : List Bool}
    (others : ∀ t, t ≠ s ++ [b] → L'.place t = L.place t)
    (notParent : t ≠ s) (notChild : t.dropLast ≠ s ++ [b]) (ok : NodeOk L m t node) :
    NodeOk L' m t node := by
  have apart (c : Bool) : t ++ [c] ≠ s ++ [b] := fun same =>
    notParent (List.append_inj' same rfl).1
  exact { ok with
    parent := (others _ notChild).trans ok.parent
    left := by rw [ok.left, others _ (apart false)]
    right := by rw [ok.right, others _ (apart true)] }

theorem NodeOk.forget_child (leaf : ∀ c, L.place (s ++ [b] ++ [c]) = none)
    (placed : L.place (s ++ [b]) = some p) (ok : NodeOk L m s node) :
    NodeOk (L.prune (s ++ [b]) leaf) m s
      (if node.right = some p then { node with right := none }
        else { node with left := none }) := by
  have side : node.right = some p ↔ b = true := by
    rw [ok.right]
    constructor
    · intro found
      simpa using (L.injective _ _ p found placed).symm
    · rintro rfl
      exact placed
  simp only [side]
  exact ok.relink (fun _ => Layout.prune_place_ne leaf) (Layout.prune_place_self _ leaf)

theorem Represents.free_leaf (rep : Represents tree L m) (placed : L.place (s ++ [b]) = some p)
    (leaf : ∀ c, L.place (s ++ [b] ++ [c]) = none)
    (idle : m.lookup (s ++ [b]) = none) :
    ∃ tree', bstNodeFree tree p = .ok tree' ∧ Represents tree' (L.prune (s ++ [b]) leaf) m := by
  obtain ⟨node, live, ok⟩ := rep.node _ p placed
  have above : L.place s = some node.parent := by rw [← ok.parent, List.dropLast_concat]
  obtain ⟨parent, parentLive, parentOk⟩ := rep.node s _ above
  have notSelf : node.parent ≠ p := by
    intro same
    rw [same] at above
    exact snoc_ne_self s b (L.injective _ _ p placed above)
  have stillLive : (tree.heap.set node.parent
        (some (if parent.right = some p then { parent with right := none }
          else { parent with left := none }))).get? p = some node := by
    rw [Heap.get?_set_ne _ (Ne.symm notSelf), live]
  refine ⟨_, by
    simp only [bstNodeFree, Heap.read_of_live live, ok_bind, if_pos notSelf,
      Heap.read_of_live parentLive,
      Heap.write_of_live _ parentLive, Heap.free_of_live stillLive,
      pure_eq_ok]; rfl, ?_⟩
  refine {
    node := ?_
    support := ?_
    root := ?_
    entries := rep.entries }
  · intro t q found
    by_cases gone : t = s ++ [b]
    · rw [gone, Layout.prune_place_self] at found
      cases found
    rw [Layout.prune_place_ne leaf gone] at found
    have apart : q ≠ p := by
      rintro rfl
      exact gone (L.injective _ _ q found placed)
    by_cases atParent : t = s
    · subst atParent
      rw [above] at found
      cases found
      refine ⟨_, ?_, parentOk.forget_child leaf placed⟩
      rw [Heap.get?_set_ne _ apart, Heap.get?_set_self _ parentLive]
    have elsewhere : q ≠ node.parent := by
      rintro rfl
      exact atParent (L.injective _ _ _ found above)
    obtain ⟨other, otherLive, otherOk⟩ := rep.node t q found
    have notChild : t.dropLast ≠ s ++ [b] := by
      intro same
      cases t using List.reverseRecOn with
      | nil => simp at same
      | append_singleton t c =>
        -- `t ++ [c]` would be a child of the leaf.
        rw [List.dropLast_concat] at same
        rw [same, leaf c] at found
        cases found
    refine ⟨other, ?_, otherOk.elsewhere (fun _ => Layout.prune_place_ne leaf) atParent notChild⟩
    rw [Heap.get?_set_ne _ apart, Heap.get?_set_ne _ elsewhere, otherLive]
  · intro t value found
    obtain ⟨q, here⟩ := rep.support t value found
    refine ⟨q, ?_⟩
    rw [Layout.prune_place_ne]
    · exact here
    · rintro rfl
      rw [idle] at found
      cases found
  · rw [Layout.prune_place_ne leaf (by simp)]
    exact rep.root

/-- Pruning a leaf and then shrinking towards its parent is shrinking
towards the leaf. -/
theorem Layout.Shrinks.of_prune {L' : Layout} (leaf : ∀ c, L.place (s ++ [b] ++ [c]) = none)
    (rest : Layout.Shrinks (L.prune (s ++ [b]) leaf) L' s) :
    Layout.Shrinks L L' (s ++ [b]) where
  keeps := by
    intro t p placed off
    apply rest.keeps t p
    · rw [Layout.prune_place_ne]
      · exact placed
      · rintro rfl
        exact off (List.prefix_refl _)
    · intro begins
      exact off (begins.trans (List.prefix_append s [b]))
  from_before := by
    intro t p placed
    have before := rest.from_before t p placed
    by_cases gone : t = s ++ [b]
    · rw [gone, Layout.prune_place_self] at before
      cases before
    · rwa [Layout.prune_place_ne leaf gone] at before
  root := by
    rw [rest.root, Layout.prune_place_ne leaf (by simp)]

/-- The loop over the parents keeps the map and only frees nodes on the way
down to where it starts. -/
theorem Represents.release_parents :
    ∀ {fuel : Nat} {tree : Bst α} {L : Layout} {s : List Bool} {p : Ptr},
      Represents tree L m → L.place s = some p → s.length < fuel →
      ∃ tree' L', releaseParents fuel tree p = .ok tree' ∧
        Represents tree' L' m ∧ Layout.Shrinks L L' s := by
  intro fuel
  induction fuel with
  | zero =>
    intro tree L s p _ _ enough
    omega
  | succ fuel ih =>
    intro tree L s p rep placed enough
    obtain ⟨node, live, ok⟩ := rep.node s p placed
    by_cases goes :
        (node.priv.isNone && node.left.isNone && node.right.isNone && p != node.parent) = true
    · have parts := goes
      simp only [Bool.and_eq_true, Option.isNone_iff_eq_none, bne_iff_ne] at parts
      obtain ⟨⟨⟨noPriv, noLeft⟩, noRight⟩, notSelf⟩ := parts
      cases s using List.reverseRecOn with
      | nil =>
        have self := ok.parent
        rw [List.dropLast_nil, placed] at self
        cases self
        exact absurd rfl notSelf
      | append_singleton s b =>
        have leaf := ok.childless_iff.mp ⟨noLeft, noRight⟩
        obtain ⟨shorter, freed, shorterRep⟩ := rep.free_leaf placed leaf (by rw [← ok.priv, noPriv])
        have above : (L.prune (s ++ [b]) leaf).place s = some node.parent := by
          rw [Layout.prune_place_ne leaf (snoc_ne_self s b).symm, ← ok.parent, List.dropLast_concat]
        obtain ⟨tree', L', run, rep', shrinks⟩ := ih shorterRep above (by simp at enough; omega)
        refine ⟨tree', L', ?_, rep', shrinks.of_prune leaf⟩
        simp only [releaseParents, Heap.read_of_live live, ok_bind, if_pos goes, freed]
        exact run
    · refine ⟨tree, L, ?_, rep, Layout.Shrinks.refl L s⟩
      simp only [releaseParents, Heap.read_of_live live, ok_bind, if_neg goes, pure_eq_ok]

/-- Releasing a node that is not a childless root erases its key. -/
theorem Represents.release (rep : Represents tree L m) (placed : L.place s = some p)
    (notLonely : s ≠ [] ∨ ∃ b q, L.place [b] = some q) :
    ∃ tree' L', bstNodeRelease tree p = .ok tree' ∧
      Represents tree' L' (m.erase s) ∧ Layout.Shrinks L L' s := by
  obtain ⟨orphaned, ran, rep'⟩ := rep.orphan placed
  obtain ⟨node, live, ok⟩ := rep'.node s p placed
  by_cases children : (node.left.isSome || node.right.isSome) = true
  · refine ⟨orphaned, L, ?_, rep', Layout.Shrinks.refl L s⟩
    simp only [bstNodeRelease, ran, ok_bind, Heap.read_of_live live, if_pos children, pure_eq_ok]
  have leaf : ∀ b, L.place (s ++ [b]) = none := by
    apply ok.childless_iff.mp
    simpa using children
  cases s using List.reverseRecOn with
  | nil =>
    rcases notLonely with notRoot | ⟨b, q, child⟩
    · exact absurd rfl notRoot
    · have absent := leaf b
      rw [List.nil_append, child] at absent
      cases absent
  | append_singleton s b =>
    obtain ⟨shorter, freed, shorterRep⟩ := rep'.free_leaf placed leaf (Finmap.lookup_erase _ m)
    have above : (L.prune (s ++ [b]) leaf).place s = some node.parent := by
      rw [Layout.prune_place_ne leaf (snoc_ne_self s b).symm, ← ok.parent, List.dropLast_concat]
    have enough : s.length < node.prefixBits + 1 := by
      rw [ok.depth, List.length_append]
      omega
    obtain ⟨tree', L', run, final, shrinks⟩ := shorterRep.release_parents above enough
    refine ⟨tree', L', ?_, final, shrinks.of_prune leaf⟩
    simp only [bstNodeRelease, ran, ok_bind, Heap.read_of_live live, if_neg children, freed]
    exact run

/-- A root without children is its own parent: once it is freed, the loop
over the parents reads it again. -/
theorem Represents.release_lonely (rep : Represents tree L m)
    (placed : L.place [] = some p) (lonely : ∀ b, L.place [b] = none) :
    bstNodeRelease tree p = .error .freed := by
  obtain ⟨orphaned, ran, rep'⟩ := rep.orphan placed
  obtain ⟨node, live, ok⟩ := rep'.node [] p placed
  have children : ¬ (node.left.isSome || node.right.isSome) = true := by
    have none := ok.childless_iff.mpr lonely
    simp [none.1, none.2]
  have self : node.parent = p := by
    have above := ok.parent
    rw [List.dropLast_nil, placed] at above
    exact (Option.some.inj above).symm
  have notOther : ¬ node.parent ≠ p := by simp [self]
  have freed : bstNodeFree orphaned p =
        .ok { orphaned with
          heap := orphaned.heap.set p none, root := none } := by
    simp only [bstNodeFree, Heap.read_of_live live, ok_bind, if_neg notOther,
      Heap.free_of_live live, pure_eq_ok]
  have readAgain : (orphaned.heap.set p none).read p = .error .freed := by
    simp [Heap.read, Heap.get?_set_self none live]
  simp only [bstNodeRelease, ran, ok_bind, Heap.read_of_live live, if_neg children, freed,
    releaseParents, self, readAgain, error_bind]

/-- Removing a prefix erases it, and reports whether it was there. -/
theorem Represents.remove (rep : Represents tree L m) {key : List UInt8}
    {bits : Nat} (long : bits ≤ 8 * key.length) :
    ∃ tree', bstRemovePrefix tree key bits = .ok ((m.lookup (takeBits key bits)).isSome, tree') ∧
        Represents tree' L (m.erase (takeBits key bits)) := by
  have absent_case (absent : takeBits key bits ∉ m) :
      (m.lookup (takeBits key bits)).isSome = false ∧
        Represents tree L (m.erase (takeBits key bits)) := by
    have vacant := Finmap.lookup_eq_none.mpr absent
    rw [BitMap.erase_of_absent vacant, vacant]
    exact ⟨rfl, rep⟩
  rcases rep.find long with ⟨run, absent⟩ | ⟨s, p, run, placed, isLongest⟩
  · obtain ⟨nothing, rep'⟩ := absent_case (absent _ List.prefix_rfl)
    refine ⟨tree, ?_, rep'⟩
    simp only [bstRemovePrefix, run, ok_bind, nothing, pure_eq_ok]
  obtain ⟨node, live, ok⟩ := rep.node s p placed
  obtain ⟨short, same⟩ := eq_takeBits_of_prefix isLongest.begins
  by_cases whole : s.length = bits
  · rw [whole] at same
    subst same
    obtain ⟨tree', ran, rep'⟩ := rep.orphan placed
    have here := Finmap.lookup_isSome.mpr isLongest.here
    refine ⟨tree', ?_, rep'⟩
    simp only [bstRemovePrefix, run, ok_bind, Heap.read_of_live live, ok.depth, if_pos whole, ran,
      here, pure_eq_ok]
  · have absent : takeBits key bits ∉ m := by
      intro member
      have longer := isLongest.longest _ List.prefix_rfl member
      rw [takeBits_length] at longer
      omega
    obtain ⟨nothing, rep'⟩ := absent_case absent
    refine ⟨tree, ?_, rep'⟩
    simp only [bstRemovePrefix, run, ok_bind, Heap.read_of_live live, ok.depth, if_neg whole,
      nothing, pure_eq_ok]

end Serval
