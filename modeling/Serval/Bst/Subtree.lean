import Mathlib.Data.Finset.Basic
import Serval.Bst.Release

/-!
# Applying a function to a subtree

`bst_subtree_func` keeps the nodes it has yet to visit on a stack and reads
the children of a node before it calls the function, which may release the
node. The nodes on the stack lie in different subtrees, so no release can
free one of them.
-/

namespace Serval

open Serval.Support

variable {α σ : Type}

def visitNode (func : Ptr → σ → Except Fault (Int × σ))
    (n : Ptr) (node : BstNode α) (state : σ) : Except Fault (Int × σ) :=
  if node.priv.isSome then func n state else return (0, state)

/-- The loop of `bst_subtree_func`. The function works on a state that the
trie is a part of. -/
def subtreeLoop (tree : σ → Bst α) (func : Ptr → σ → Except Fault (Int × σ)) :
    Nat → List Ptr → Int → σ → Except Fault (Int × σ)
  | 0, _, _, _ => .error .fuel
  | _ + 1, [], count, state => return (count, state)
  | fuel + 1, n :: stack, count, state => do
    let node ← (tree state).heap.read n
    let (ret, state) ← visitNode func n node state
    if ret < 0 then
      return (ret, state)
    subtreeLoop tree func fuel
      (node.left.toList ++ (node.right.toList ++ stack)) (count + ret)
      state

/-- No more rounds are needed than nodes have ever been allocated. -/
def bstSubtreeFunc (tree : σ → Bst α)
    (func : Ptr → σ → Except Fault (Int × σ)) (n : Ptr) (state : σ) :
    Except Fault (Int × σ) :=
  subtreeLoop tree func ((tree state).heap.next + 1) [n] 0 state

/-! ## What is still to be visited -/

private def Below (pending : List (List Bool)) (s : List Bool) : Prop := ∃ t ∈ pending, t <+: s

def Layout.children (L : Layout) (t : List Bool) : List (List Bool) :=
  [t ++ [false], t ++ [true]].filter fun u => (L.place u).isSome

/-- The stack holds the pending nodes, which lie in different subtrees. -/
structure Pending (L : Layout) (stack : List Ptr) (pending : List (List Bool)) : Prop where
  placed : pending.map L.place = stack.map some
  apart : pending.Pairwise fun s t => ¬ s <+: t ∧ ¬ t <+: s

variable {L : Layout} {stack : List Ptr} {t : List Bool} {pending : List (List Bool)}

theorem Pending.stack_nil (ready : Pending L stack []) : stack = [] :=
  List.map_eq_nil_iff.mp ready.placed.symm

theorem Pending.stack_cons (ready : Pending L stack (t :: pending)) :
    ∃ p rest, stack = p :: rest ∧ L.place t = some p := by
  obtain ⟨p, rest, split, here, _⟩ := List.map_eq_cons_iff.mp ready.placed.symm
  exact ⟨p, rest, split, here.symm⟩

theorem Layout.mem_children {u : List Bool} : u ∈ L.children t ↔
      ∃ b p, u = t ++ [b] ∧ L.place (t ++ [b]) = some p := by
  simp only [Layout.children, List.mem_filter, List.mem_cons, List.not_mem_nil, or_false,
    Option.isSome_iff_exists]
  constructor
  · rintro ⟨rfl | rfl, p, placed⟩
    · exact ⟨false, p, rfl, placed⟩
    · exact ⟨true, p, rfl, placed⟩
  · rintro ⟨b, p, rfl, placed⟩
    refine ⟨?_, p, placed⟩
    cases b with
    | false => exact Or.inl rfl
    | true => exact Or.inr rfl

theorem Layout.children_placed {m : BitMap α} {node : BstNode α} (ok : NodeOk L m t node) :
    (L.children t).map L.place = (node.left.toList ++ node.right.toList).map some := by
  rw [ok.left, ok.right]
  cases left : L.place (t ++ [false]) with
  | none =>
    cases right : L.place (t ++ [true]) with
    | none | some q => simp [Layout.children, left, right]
  | some p =>
    cases right : L.place (t ++ [true]) with
    | none | some q => simp [Layout.children, left, right]

theorem snoc_prefix_iff {u : List Bool} {b : Bool} : t ++ [b] <+: u → t <+: u :=
  (List.prefix_append t [b]).trans

theorem not_snoc_prefix (t : List Bool) (b : Bool) : ¬ t ++ [b] <+: t := by
  intro begins
  have shorter := begins.length_le
  simp at shorter

section Step

variable {L L' : Layout} {stack : List Ptr} {pending : List (List Bool)} {t : List Bool} {p : Ptr}

theorem apart_children (L : Layout) (t : List Bool) :
    (L.children t).Pairwise fun s u => ¬ s <+: u ∧ ¬ u <+: s := by
  have both : [t ++ [false], t ++ [true]].Pairwise fun s u => ¬ s <+: u ∧ ¬ u <+: s := by
    refine List.pairwise_cons.mpr ⟨?_, List.pairwise_singleton _ _⟩
    intro u member
    rw [List.mem_singleton.mp member]
    constructor
    · intro begins
      have same := begins.eq_of_length (by simp)
      simp at same
    · intro begins
      have same := begins.eq_of_length (by simp)
      simp at same
  exact both.filter _

/-- What is pending once a node has been visited: its children come first. -/
theorem Pending.next {m : BitMap α} {node : BstNode α}
    (ready : Pending L (p :: stack) (t :: pending))
    (ok : NodeOk L m t node) (shrinks : Layout.Shrinks L L' t) :
    Pending L' (node.left.toList ++ (node.right.toList ++ stack))
      (L.children t ++ pending) := by
  have apart := List.pairwise_cons.mp ready.apart
  have placed := ready.placed
  simp only [List.map_cons, List.cons.injEq] at placed
  have keeps : ∀ u ∈ L.children t ++ pending, L'.place u = L.place u := by
    intro u member
    have notAbove : ¬ u <+: t := by
      rcases List.mem_append.mp member with child | other
      · obtain ⟨b, q, rfl, _⟩ := Layout.mem_children.mp child
        exact not_snoc_prefix t b
      · exact (apart.1 u other).2
    have found : ∃ q, L.place u = some q := by
      rcases List.mem_append.mp member with child | other
      · obtain ⟨b, q, rfl, placed⟩ := Layout.mem_children.mp child
        exact ⟨q, placed⟩
      have inMap : L.place u ∈ stack.map some := by
        rw [← placed.2]
        exact List.mem_map_of_mem other
      obtain ⟨q, _, same⟩ := List.mem_map.mp inMap
      exact ⟨q, same.symm⟩
    obtain ⟨q, here⟩ := found
    rw [here]
    exact shrinks.keeps u q here notAbove
  constructor
  · rw [List.map_congr_left keeps, List.map_append, Layout.children_placed ok, placed.2,
      ← List.map_append,
      List.append_assoc]
  · refine List.pairwise_append.mpr ⟨apart_children L t, apart.2, ?_⟩
    intro u child v other
    obtain ⟨b, q, rfl, _⟩ := Layout.mem_children.mp child
    obtain ⟨notBelow, notAbove⟩ := apart.1 v other
    constructor
    · intro begins
      exact notBelow (snoc_prefix_iff begins)
    · intro begins
      rcases List.prefix_concat_iff.mp begins with same | above
      · apply notBelow
        rw [same]
        exact List.prefix_append t [b]
      · exact notAbove above

theorem Pending.not_below_self (ready : Pending L (p :: stack) (t :: pending)) :
    ¬ Below (L.children t ++ pending) t := by
  rintro ⟨u, member, begins⟩
  rcases List.mem_append.mp member with child | other
  · obtain ⟨b, q, rfl, _⟩ := Layout.mem_children.mp child
    exact not_snoc_prefix t b begins
  · exact ((List.pairwise_cons.mp ready.apart).1 u other).2 begins

theorem below_of_below_next {u : List Bool} (below : Below (L.children t ++ pending) u) :
    Below (t :: pending) u := by
  obtain ⟨v, member, begins⟩ := below
  rcases List.mem_append.mp member with child | other
  · obtain ⟨b, q, rfl, _⟩ := Layout.mem_children.mp child
    exact ⟨t, List.mem_cons_self, snoc_prefix_iff begins⟩
  · exact ⟨v, List.mem_cons_of_mem t other, begins⟩

/-- A placed string below the visited node is the node itself or still
pending. -/
theorem below_next_of_below {u : List Bool} {q : Ptr} (placed : L.place u = some q)
    (different : u ≠ t) (below : Below (t :: pending) u) :
    Below (L.children t ++ pending) u := by
  obtain ⟨v, member, begins⟩ := below
  rcases List.mem_cons.mp member with rfl | other
  · obtain ⟨rest, rfl⟩ := begins
    cases rest with
    | nil => exact absurd (List.append_nil v) different
    | cons b rest =>
      have child : v ++ [b] <+: v ++ b :: rest := ⟨rest, by simp⟩
      obtain ⟨r, childPlaced⟩ := Layout.place_of_prefix child placed
      refine ⟨v ++ [b], List.mem_append_left _ ?_, child⟩
      exact Layout.mem_children.mpr ⟨b, r, rfl, childPlaced⟩
  · exact ⟨v, List.mem_append_right _ other, begins⟩

end Step

open Classical in
/-- The addresses below `limit` of nodes that are still to be visited. -/
noncomputable def toVisit
    (limit : Nat) (L : Layout) (pending : List (List Bool)) : Finset Ptr :=
  (Finset.range limit).filter fun p =>
    ∃ s, L.place s = some p ∧ Below pending s

theorem mem_toVisit {limit : Nat} {p : Ptr} : p ∈ toVisit limit L pending ↔
      p < limit ∧ ∃ s, L.place s = some p ∧ Below pending s := by
  simp [toVisit]

theorem card_toVisit_le (limit : Nat) (L : Layout) (pending : List (List Bool)) :
    (toVisit limit L pending).card ≤ limit := by
  have fits : toVisit limit L pending ⊆ Finset.range limit := by
    intro p member
    exact Finset.mem_range.mpr (mem_toVisit.mp member).1
  simpa using Finset.card_le_card fits

theorem card_toVisit_next {limit : Nat} {L' : Layout} {p : Ptr}
    (ready : Pending L (p :: stack) (t :: pending))
    (shrinks : Layout.Shrinks L L' t) (inside : p < limit) :
    (toVisit limit L' (L.children t ++ pending)).card < (toVisit limit L (t :: pending)).card := by
  have placed : L.place t = some p := by
    have first := ready.placed
    simp only [List.map_cons, List.cons.injEq] at first
    exact first.1
  apply Finset.card_lt_card
  rw [Finset.ssubset_iff_of_subset]
  · refine ⟨p, ?_, ?_⟩
    · exact mem_toVisit.mpr ⟨inside, t, placed, t, List.mem_cons_self, List.prefix_rfl⟩
    · intro member
      obtain ⟨_, s, here, below⟩ := mem_toVisit.mp member
      have same := L.injective s t p (shrinks.from_before s p here) placed
      rw [same] at below
      exact ready.not_below_self below
  · intro q member
    obtain ⟨small, s, here, below⟩ := mem_toVisit.mp member
    exact mem_toVisit.mpr ⟨small, s, shrinks.from_before s q here, below_of_below_next below⟩

/-- What a call on the active node of `t` does: the value there becomes what
`visit` makes of it, or goes. -/
def Visits (invariant : σ → Layout → BitMap α → Prop)
    (func : Ptr → σ → Except Fault (Int × σ)) (visit : α → Option α)
    (good : α → Prop) : Prop :=
  ∀ state L m t p value, invariant state L m → L.place t = some p →
    m.lookup t = some value → good value →
    (visit value = none → t ≠ [] ∨ ∃ b q, L.place [b] = some q) →
    ∃ ret state' L', func p state = .ok (ret, state') ∧ 0 ≤ ret ∧
      invariant state' L' (m.assign t (visit value)) ∧ Layout.Shrinks L L' t

section Loop

variable {tree : σ → Bst α} {invariant : σ → Layout → BitMap α → Prop}
  {func : Ptr → σ → Except Fault (Int × σ)} {visit : α → Option α}
  {good : α → Prop}

theorem Visits.visitNode (visits : Visits invariant func visit good)
    {state : σ} {L : Layout} {m : BitMap α} {t : List Bool} {p : Ptr}
    {node : BstNode α}
    (holds : invariant state L m) (placed : L.place t = some p)
    (ok : NodeOk L m t node)
    (allGood : ∀ value, m.lookup t = some value → good value)
    (notLonely :
      ∀ value, m.lookup t = some value → visit value = none →
        t ≠ [] ∨ ∃ b q, L.place [b] = some q) :
    ∃ ret state' L' m', Serval.visitNode func p node state = .ok (ret, state') ∧ 0 ≤ ret ∧
        invariant state' L' m' ∧ Layout.Shrinks L L' t ∧
        ∀ u, m'.lookup u =
          if u = t then (m.lookup t).bind visit else m.lookup u := by
  unfold Serval.visitNode
  rw [ok.priv]
  cases held : m.lookup t with
  | none =>
    refine ⟨0, state, L, m, rfl, le_rfl, holds, Layout.Shrinks.refl L t, ?_⟩
    intro u
    by_cases same : u = t
    · rw [if_pos same, same, held]
      rfl
    · rw [if_neg same]
  | some value =>
    obtain ⟨ret, state', L', run, positive, holds', shrinks⟩ :=
      visits state L m t p value holds placed held (allGood value held)
        (notLonely value held)
    refine ⟨ret, state', L', _, run, positive, holds', shrinks, ?_⟩
    intro u
    rw [BitMap.lookup_assign]
    rfl

/-- What a visit of the first pending node and of the nodes after it comes
to, for the map. -/
theorem visited_next {L : Layout} {m m₁ m' : BitMap α} {t : List Bool} {pending : List (List Bool)}
    (support : ∀ s value, m.lookup s = some value → ∃ q, L.place s = some q)
    (notBelowSelf : ¬ Below (L.children t ++ pending) t)
    (changed :
      ∀ u, m₁.lookup u =
        if u = t then (m.lookup t).bind visit else m.lookup u)
    (visited :
      ∀ s, (Below (L.children t ++ pending) s → m'.lookup s = (m₁.lookup s).bind visit) ∧
        (¬ Below (L.children t ++ pending) s → m'.lookup s = m₁.lookup s))
    (s : List Bool) :
    (Below (t :: pending) s → m'.lookup s = (m.lookup s).bind visit) ∧
      (¬ Below (t :: pending) s → m'.lookup s = m.lookup s) := by
  by_cases same : s = t
  · subst same
    have here := (visited s).2 notBelowSelf
    rw [changed, if_pos rfl] at here
    refine ⟨fun _ => here, ?_⟩
    intro notBelow
    exact absurd ⟨s, List.mem_cons_self, List.prefix_rfl⟩ notBelow
  · have unchanged : m₁.lookup s = m.lookup s := by rw [changed, if_neg same]
    constructor
    · intro below
      by_cases still : Below (L.children t ++ pending) s
      · rw [(visited s).1 still, unchanged]
      have absent : m.lookup s = none := by
        cases held : m.lookup s with
        | none => rfl
        | some value =>
          obtain ⟨q, here⟩ := support s value held
          exact absurd (below_next_of_below here same below) still
      rw [(visited s).2 still, unchanged, absent]
      rfl
    · intro notBelow
      rw [(visited s).2 fun below => notBelow (below_of_below_next below), unchanged]

theorem Visits.subtreeLoop (visits : Visits invariant func visit good)
    (represents : ∀ state L m, invariant state L m → Represents (tree state) L m)
    {limit : Nat} :
    ∀ fuel stack pending count state L m, invariant state L m → Pending L stack pending →
      (∀ s p, L.place s = some p → p < limit) → (toVisit limit L pending).card < fuel →
      (∀ s value, Below pending s → m.lookup s = some value → good value) →
      ([] ∈ pending → ∀ value, m.lookup [] = some value →
        visit value = none → ∃ b q, L.place [b] = some q) →
      ∃ total state' L' m', Serval.subtreeLoop tree func fuel stack count state =
            .ok (total, state') ∧ invariant state' L' m' ∧
          (∀ s p, L'.place s = some p → L.place s = some p) ∧
          ∀ s, (Below pending s → m'.lookup s = (m.lookup s).bind visit) ∧
            (¬ Below pending s → m'.lookup s = m.lookup s) := by
  intro fuel
  induction fuel with
  | zero =>
    intro stack pending count state L m _ _ _ enough
    omega
  | succ fuel ih =>
    intro stack pending count state L m holds ready small enough allGood notLonely
    cases pending with
    | nil =>
      rw [ready.stack_nil]
      refine ⟨count, state, L, m, rfl, holds, fun _ _ placed => placed, ?_⟩
      intro s
      refine ⟨?_, fun _ => rfl⟩
      rintro ⟨t, member, _⟩
      cases member
    | cons t pending =>
      obtain ⟨p, rest, split, placed⟩ := ready.stack_cons
      subst split
      obtain ⟨node, live, ok⟩ := (represents state L m holds).node t p placed
      have company : ∀ value, m.lookup t = some value → visit value = none →
            t ≠ [] ∨ ∃ b q, L.place [b] = some q := by
        intro value held gone
        by_cases atRoot : t = []
        · subst atRoot
          exact Or.inr (notLonely List.mem_cons_self value held gone)
        · exact Or.inl atRoot
      obtain ⟨ret, state₁, L₁, m₁, run, positive, holds₁, shrinks, changed⟩ :=
        visits.visitNode holds placed ok
          (fun value => allGood t value ⟨t, List.mem_cons_self, List.prefix_rfl⟩) company
      have fewer := card_toVisit_next ready shrinks (small t p placed)
      have notRoot : [] ∉ L.children t ++ pending := by
        intro member
        exact ready.not_below_self ⟨[], member, List.nil_prefix⟩
      have stillGood : ∀ s value, Below (L.children t ++ pending) s →
            m₁.lookup s = some value → good value := by
        intro s value below held
        have different : s ≠ t := by
          intro same
          rw [same] at below
          exact ready.not_below_self below
        rw [changed, if_neg different] at held
        exact allGood s value (below_of_below_next below) held
      obtain ⟨total, state', L', m', ran, holds', from_before, visited⟩ := ih
          (node.left.toList ++ (node.right.toList ++ rest))
          (L.children t ++ pending) (count + ret) state₁ L₁ m₁
          holds₁ (ready.next ok shrinks)
          (fun s q here => small s q (shrinks.from_before s q here))
          (by omega) stillGood (fun member => absurd member notRoot)
      refine ⟨total, state', L', m', ?_, holds', ?_, ?_⟩
      · have notNegative : ¬ ret < 0 := by omega
        simp only [Serval.subtreeLoop, Heap.read_of_live live, ok_bind, run, if_neg notNegative]
        exact ran
      · intro s q here
        exact shrinks.from_before s q (from_before s q here)
      · exact visited_next (represents state L m holds).support ready.not_below_self changed visited

theorem Visits.bstSubtreeFunc (visits : Visits invariant func visit good)
    (represents : ∀ state L m, invariant state L m → Represents (tree state) L m)
    {state : σ} {L : Layout} {m : BitMap α} {root : Ptr}
    (holds : invariant state L m) (rooted : L.place [] = some root)
    (allGood : ∀ s value, m.lookup s = some value → good value)
    (notLonely :
      ∀ value, m.lookup [] = some value → visit value = none →
        ∃ b q, L.place [b] = some q) :
    ∃ total state' L' m', Serval.bstSubtreeFunc tree func root state = .ok (total, state') ∧
        invariant state' L' m' ∧
        ∀ s, m'.lookup s = (m.lookup s).bind visit := by
  have small : ∀ s p, L.place s = some p → p < (tree state).heap.next := by
    intro s p placed
    obtain ⟨node, live, _⟩ := (represents state L m holds).node s p placed
    exact Heap.lt_next_of_get? live
  obtain ⟨total, state', L', m', run, holds', _, visited⟩ :=
    visits.subtreeLoop represents ((tree state).heap.next + 1) [root] [[]] 0
      state L m holds
      { placed := by simp [rooted]
        apart := List.pairwise_singleton _ _ }
      small
      (Nat.lt_succ_of_le (card_toVisit_le _ L [[]]))
      (fun s value _ held => allGood s value held)
      (fun _ => notLonely)
  refine ⟨total, state', L', m', run, holds', ?_⟩
  intro s
  exact (visited s).1 ⟨[], List.mem_singleton.mpr rfl, List.nil_prefix⟩

end Loop

end Serval
