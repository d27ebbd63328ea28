import Mathlib.Data.List.Induction
import Mathlib.Order.RelClasses
import Serval.Servd.Timers

/-!
# The order of the heap

`heap_insert` moves a parent down when `cmp` puts it before the new item, and
`heap_heapify` moves a child up when `cmp` puts it before its parent: the first
makes larger items rise, the second smaller ones. `heap_remove` puts the last
item in the place of the one removed and leaves its `index` as it is.
-/

namespace Serval.Servd

open Serval.Support

/-- `heap_init`; what the items hold is up to the caller. -/
def heapInit (maxSize : Nat) (items : Ptr → HeapItem) : TimerHeap :=
  ⟨if maxSize = 0 then HEAP_DEFAULT_SIZE else maxSize, [], items⟩

inductive HeapOp where
  | insert (item : Ptr) (grow : Bool)
  | remove (index : Nat)

section

variable (cmp : Ptr → Ptr → Bool) (s : TimerHeap × List Ptr)

def heapStep : HeapOp → TimerHeap × List Ptr
  | .insert item grow =>
    match heapInsert cmp s.1 item grow with
    | some h => (h, item :: s.2)
    | none => s
  | .remove index =>
    match heapRemove cmp s.1 index with
    | some (item, h) => (h, s.2.erase item)
    | none => s

def heapRun (h : TimerHeap) (ops : List HeapOp) : TimerHeap × List Ptr :=
  ops.foldl (heapStep cmp) (h, [])

/-- A heap of what was put in, with the least in front. -/
structure MinHeap : Prop where
  stored : s.1.map.Perm s.2
  index : ∀ i item, s.1.map[i]? = some item → (s.1.items item).index = i
  order : ∀ i child parent, 0 < i → s.1.map[i]? = some child →
    s.1.map[(i - 1) / 2]? = some parent → cmp child parent = false
  front : ∀ first, s.1.map[0]? = some first → ∀ item ∈ s.1.map, cmp item first = false

/-- A call that finds nothing to order: a new item that is neither before nor
behind any other or has no room, or a removal at the end. -/
def HeapOp.Harmless (h : TimerHeap) : HeapOp → Prop
  | .insert item grow => h.maxSize ≤ h.map.length ∧ grow = false ∨ item ∉ h.map ∧
      ∀ other ∈ h.map, cmp other item = false ∧ cmp item other = false
  | .remove index => h.map.length ≤ index + 1

end

/-! ## Heaps with nothing to order -/

structure FlatHeap (cmp : Ptr → Ptr → Bool) (s : TimerHeap × List Ptr) : Prop where
  heap : MinHeap cmp s
  flat : ∀ a ∈ s.1.map, ∀ b ∈ s.1.map, cmp a b = false
  fits : s.1.map.length ≤ s.1.maxSize

variable {cmp : Ptr → Ptr → Bool} {s : TimerHeap × List Ptr}

private theorem FlatHeap.of_flat (stored : s.1.map.Perm s.2)
    (index : ∀ i item, s.1.map[i]? = some item → (s.1.items item).index = i)
    (flat : ∀ a ∈ s.1.map, ∀ b ∈ s.1.map, cmp a b = false) (fits : s.1.map.length ≤ s.1.maxSize) :
    FlatHeap cmp s where
  heap :=
    { stored := stored
      index := index
      order := fun _ _ _ _ child parent =>
        flat _ (List.mem_of_getElem? child) _ (List.mem_of_getElem? parent)
      front := fun _ first item inside => flat item inside _ (List.mem_of_getElem? first) }
  flat := flat
  fits := fits

private theorem FlatHeap.init (maxSize : Nat) (items : Ptr → HeapItem) :
    FlatHeap cmp (heapInit maxSize items, []) :=
  .of_flat (.refl _) (by simp [heapInit]) (by simp [heapInit]) (Nat.zero_le _)

private theorem heapHeapify_flat {h : TimerHeap} (flat : ∀ a ∈ h.map, ∀ b ∈ h.map, cmp a b = false)
    (fuel i : Nat) : heapHeapify cmp fuel h i = h := by
  have still (k j : Nat) : goesBefore cmp h.map k j = false := by
    rw [goesBefore]
    split
    · rename_i first second
      exact flat _ (List.mem_of_getElem? first) _ (List.mem_of_getElem? second)
    · rfl
  cases fuel with
  | zero => rfl
  | succ fuel => simp [heapHeapify, smallestOf, still]

/-- Above items that all go before it, the new one rises to the front. -/
theorem insertLoop_climbs {item : Ptr} {fuel i : Nat} {map : List Ptr} {items : Ptr → HeapItem}
    (enough : i ≤ fuel) (inside : i < map.length)
    (below : ∀ k other, k < i → map[k]? = some other → cmp other item = true) :
    (insertLoop cmp item fuel map items i).2.2 = 0 := by
  induction fuel generalizing i map items with
  | zero => exact Nat.le_zero.mp enough
  | succ fuel ih =>
    have some := List.getElem?_eq_getElem (show (i - 1) / 2 < map.length by omega)
    rcases Nat.eq_zero_or_pos i with rfl | positive
    · simp [insertLoop, some]
    have rises := below _ _ (by omega) some
    simp only [insertLoop, some, positive, rises, decide_true, Bool.and_self, if_true]
    refine ih (by omega) (by rw [List.length_set]; omega) fun k other less here => ?_
    rw [List.getElem?_set_ne (by omega)] at here
    exact below k other (by omega) here

private theorem heapInsert_rises {h h' : TimerHeap} {item : Ptr} {grow : Bool}
    (made : heapInsert cmp h item grow = some h')
    (below : ∀ k other, k < h.map.length → (h.map ++ [item])[k]? = some other →
      cmp other item = true) : h'.map[0]? = some item := by
  have inside : h.map.length < (h.map ++ [item]).length := by simp
  have top := @insertLoop_climbs cmp item _ _ _ h.items (Nat.le_refl _) inside below
  have length := (insertLoop_spec cmp item h.map.length h.items inside).1.length_eq
  rw [List.length_set, List.length_set] at length
  simp only [heapInsert, top] at made
  split_ifs at made <;> cases made <;> exact List.getElem?_set_self (by omega)

private theorem heapInsert_eq_none_iff {h : TimerHeap} {item : Ptr} {grow : Bool} :
    heapInsert cmp h item grow = none ↔ h.maxSize ≤ h.map.length ∧ grow = false := by
  rw [heapInsert]
  simp

/-- An item that no item goes before stays where it was put. -/
theorem heapInsert_stays {h : TimerHeap} {item : Ptr} {grow : Bool}
    (able : heapInsert cmp h item grow ≠ none)
    (stays : ∀ parent, h.map[(h.map.length - 1) / 2]? = some parent → cmp parent item = false) :
    ∃ maxSize, heapInsert cmp h item grow = some ⟨maxSize, h.map ++ [item],
      Function.update h.items item ⟨h.map.length, true⟩⟩ := by
  have loop : insertLoop cmp item h.map.length (h.map ++ [item]) h.items h.map.length =
      (h.map ++ [item], h.items, h.map.length) := by
    rcases Nat.eq_zero_or_pos h.map.length with empty | positive
    · rw [empty]
      rfl
    obtain ⟨fuel, more⟩ := Nat.exists_eq_add_of_lt positive
    have inside : (h.map.length - 1) / 2 < h.map.length := by omega
    have some := List.getElem?_eq_getElem inside
    have here : (h.map ++ [item])[(h.map.length - 1) / 2]? = _ :=
      (List.getElem?_append_left inside).trans some
    nth_rewrite 1 [more]
    simp only [insertLoop, here, stays _ some, Bool.and_false, Bool.false_eq_true, if_false]
  simp only [heapInsert, loop] at able ⊢
  split_ifs at able ⊢
  · exact absurd rfl able
  · simp
  · simp

private theorem heapInsert_made {h : TimerHeap} {item : Ptr} {grow : Bool}
    (able : heapInsert cmp h item grow ≠ none) (fits : h.map.length ≤ h.maxSize) :
    ∃ h', heapInsert cmp h item grow = some h' ∧ h'.map.Perm (item :: h.map) ∧
      h'.map.length ≤ h'.maxSize := by
  have room : h.map.length < h.maxSize ∨ grow = true := by
    by_contra full
    rw [not_or, Nat.not_lt, Bool.not_eq_true] at full
    exact able (heapInsert_eq_none_iff.mpr full)
  obtain ⟨h', made, perm, fits', -⟩ := @heapInsert_spec cmp item h grow room fits
  exact ⟨h', made, perm, fits'⟩

private theorem heapRemove_flat {h : TimerHeap} {index : Nat}
    (flat : ∀ a ∈ h.map, ∀ b ∈ h.map, cmp a b = false) (inside : index < h.map.length) :
    ∃ item last, h.map[index]? = some item ∧ h.map[h.map.length - 1]? = some last ∧
      (item :: (h.map.set index last).dropLast).Perm h.map ∧
      heapRemove cmp h index = some (item, ⟨h.maxSize, (h.map.set index last).dropLast,
        Function.update h.items item ⟨0, false⟩⟩) := by
  have some := List.getElem?_eq_getElem inside
  have ends : h.map.getLast? = h.map[h.map.length - 1]? := List.getLast?_eq_getElem?
  rw [List.getElem?_eq_getElem (by omega)] at ends
  have perm := set_dropLast_perm some ends
  refine ⟨_, _, some, List.getElem?_eq_getElem (by omega), perm, ?_⟩
  rw [heapRemove, some, ends]
  dsimp only
  rw [heapHeapify_flat]
  intro a left b right
  exact flat a (perm.subset (List.mem_cons_of_mem _ left)) b
    (perm.subset (List.mem_cons_of_mem _ right))

private theorem FlatHeap.step_remove (flat : FlatHeap cmp s) {index : Nat}
    (harmless : s.1.map.length ≤ index + 1) : FlatHeap cmp (heapStep cmp s (.remove index)) := by
  rcases Nat.lt_or_ge index s.1.map.length with inside | outside
  · obtain ⟨item, last, here, ends, perm, run⟩ := heapRemove_flat flat.flat inside
    have final : index = s.1.map.length - 1 := by omega
    have cut : s.1.map.set index last = s.1.map := by
      obtain ⟨_, rfl⟩ := List.getElem?_eq_some_iff.mp ends
      subst final
      exact List.set_getElem_self _
    rw [cut] at perm run
    have within {a : Ptr} (inside : a ∈ s.1.map.dropLast) : a ∈ s.1.map :=
      List.dropLast_subset _ inside
    simp only [heapStep, run]
    refine .of_flat ?_ ?_ (fun a left b right => flat.flat a (within left) b (within right)) ?_
    · have rest := (perm.trans flat.heap.stored).erase item
      rwa [List.erase_cons_head] at rest
    · intro i other place
      have less := (List.getElem?_eq_some_iff.mp place).1
      rw [List.length_dropLast] at less
      rw [List.getElem?_dropLast, if_pos less] at place
      have different : other ≠ item := by
        rintro rfl
        have same := (flat.heap.index _ _ place).symm.trans (flat.heap.index _ _ here)
        omega
      simpa only [Function.update_of_ne different] using flat.heap.index i other place
    · show s.1.map.dropLast.length ≤ s.1.maxSize
      rw [List.length_dropLast]
      exact Nat.le_trans (Nat.sub_le ..) flat.fits
  · have none : s.1.map[index]? = none := List.getElem?_eq_none outside
    simpa only [heapStep, heapRemove, none] using flat

private theorem FlatHeap.harmless_remove (flat : FlatHeap cmp s) {index : Nat}
    (heap : MinHeap cmp (heapStep cmp s (.remove index))) : s.1.map.length ≤ index + 1 := by
  by_contra more
  have inner : index + 1 < s.1.map.length := Nat.not_le.mp more
  obtain ⟨item, last, here, ends, perm, run⟩ :=
    heapRemove_flat flat.flat (Nat.lt_of_succ_lt inner)
  simp only [heapStep, run] at heap
  have moved := heap.index index last (by
    rw [List.getElem?_dropLast, List.length_set, if_pos (by omega),
      List.getElem?_set_self (by omega)])
  have place := flat.heap.index _ _ ends
  have different : last ≠ item := by
    rintro rfl
    have same := place.symm.trans (flat.heap.index _ _ here)
    omega
  simp only [Function.update_of_ne different] at moved
  omega

section

variable [order : IsStrictWeakOrder Ptr (fun a b => cmp a b = true)]

/-- Two items neither of which goes before the other compare alike. -/
theorem cmp_of_flat {a b : Ptr} (left : ¬ cmp a b = true) (right : ¬ cmp b a = true) (c : Ptr) :
    (cmp a c = true → cmp b c = true) ∧ (cmp c a = true → cmp c b = true) := by
  constructor <;> intro less <;> by_contra not
  · by_cases back : cmp c b = true
    · exact left (order.trans a c b less back)
    · exact (order.incomp_trans a b c ⟨left, right⟩ ⟨not, back⟩).1 less
  · by_cases back : cmp b c = true
    · exact right (order.trans b c a back less)
    · exact (order.incomp_trans a b c ⟨left, right⟩ ⟨back, not⟩).2 less

theorem FlatHeap.same (flat : FlatHeap cmp s) {a b : Ptr} (left : a ∈ s.1.map) (right : b ∈ s.1.map)
    (c : Ptr) : (cmp a c = true → cmp b c = true) ∧ (cmp c a = true → cmp c b = true) :=
  cmp_of_flat (Bool.eq_false_iff.mp (flat.flat a left b right))
    (Bool.eq_false_iff.mp (flat.flat b right a left)) c

private theorem FlatHeap.step_insert (flat : FlatHeap cmp s) {item : Ptr} {grow : Bool}
    (harmless : (HeapOp.insert item grow).Harmless cmp s.1) :
    FlatHeap cmp (heapStep cmp s (.insert item grow)) := by
  by_cases able : heapInsert cmp s.1 item grow = none
  · simpa only [heapStep, able] using flat
  obtain ⟨new, equal⟩ := harmless.resolve_left (mt heapInsert_eq_none_iff.mpr able)
  obtain ⟨maxSize, made⟩ := heapInsert_stays able fun parent above =>
    (equal parent (List.mem_of_getElem? above)).1
  obtain ⟨h', made', perm, fits'⟩ := heapInsert_made able flat.fits
  cases made.symm.trans made'
  simp only [heapStep, made]
  refine .of_flat (perm.trans (flat.heap.stored.cons item)) ?_ ?_ fits'
  · intro i other here
    rcases Nat.lt_or_ge i s.1.map.length with less | more
    · rw [List.getElem?_append_left less] at here
      have different : other ≠ item := fun same => new (same ▸ List.mem_of_getElem? here)
      simpa only [Function.update_of_ne different] using flat.heap.index i other here
    rw [List.getElem?_append_right more, List.getElem?_singleton] at here
    split_ifs at here with last
    cases here
    simp only [Function.update_self]
    omega
  · have self : cmp item item = false := Bool.eq_false_iff.mpr (order.irrefl item)
    intro a left b right
    simp only [List.mem_append, List.mem_singleton] at left right
    rcases left with left | rfl <;> rcases right with right | rfl
    · exact flat.flat a left b right
    · exact (equal a left).1
    · exact (equal b right).2
    · exact self

/-- Nothing is out of order after a harmless call. -/
theorem FlatHeap.step (flat : FlatHeap cmp s) {op : HeapOp} (harmless : op.Harmless cmp s.1) :
    FlatHeap cmp (heapStep cmp s op) := by
  cases op with
  | insert => exact flat.step_insert harmless
  | remove => exact flat.step_remove harmless

private theorem FlatHeap.harmless_insert (flat : FlatHeap cmp s) {item : Ptr} {grow : Bool}
    (heap : MinHeap cmp (heapStep cmp s (.insert item grow))) :
    (HeapOp.insert item grow).Harmless cmp s.1 := by
  by_cases able : heapInsert cmp s.1 item grow = none
  · exact .inl (heapInsert_eq_none_iff.mp able)
  obtain ⟨h', made, perm, -⟩ := heapInsert_made able flat.fits
  simp only [heapStep, made] at heap
  right
  have stays (parent : Ptr) (above : s.1.map[(s.1.map.length - 1) / 2]? = some parent) :
      cmp parent item = false := by
    by_contra rises
    have all (k : Nat) (other : Ptr) (less : k < s.1.map.length)
        (here : (s.1.map ++ [item])[k]? = some other) : cmp other item = true := by
      rw [List.getElem?_append_left less] at here
      exact (flat.same (List.mem_of_getElem? above) (List.mem_of_getElem? here) item).1
        (Bool.not_eq_false _ ▸ rises)
    have front := heapInsert_rises made all
    have inside := perm.symm.subset (List.mem_cons_of_mem _ (List.mem_of_getElem? above))
    exact rises (heap.front item front parent inside)
  obtain ⟨maxSize, made'⟩ := heapInsert_stays able stays
  cases made.symm.trans made'
  have last : (s.1.map ++ [item])[s.1.map.length]? = some item := by
    rw [List.getElem?_append_right (Nat.le_refl _), Nat.sub_self]
    rfl
  constructor
  · intro inside
    obtain ⟨i, less, here⟩ := List.mem_iff_getElem.mp inside
    have twice := heap.index i item (by
      rw [List.getElem?_append_left less, List.getElem?_eq_getElem less, here])
    have once := heap.index _ item last
    omega
  · intro other inside
    have positive := List.length_pos_of_mem inside
    have up : (s.1.map.length - 1) / 2 < s.1.map.length := by omega
    have above := List.getElem?_eq_getElem up
    have below := heap.order _ _ _ positive last ((List.getElem?_append_left up).trans above)
    have parent := List.mem_of_getElem? above
    have same := flat.same inside parent item
    constructor
    · exact Bool.eq_false_iff.mpr (mt same.1 (Bool.eq_false_iff.mp (stays _ above)))
    · exact Bool.eq_false_iff.mpr (mt same.2 (Bool.eq_false_iff.mp below))

/-- A call after which the heap is in order was harmless. -/
theorem FlatHeap.harmless (flat : FlatHeap cmp s) {op : HeapOp}
    (heap : MinHeap cmp (heapStep cmp s op)) : op.Harmless cmp s.1 := by
  cases op with
  | insert => exact flat.harmless_insert heap
  | remove => exact flat.harmless_remove heap

private theorem FlatHeap.run {maxSize : Nat} {items : Ptr → HeapItem} {ops : List HeapOp}
    (harmless : ∀ done op, done ++ [op] <+: ops →
      FlatHeap cmp (heapRun cmp (heapInit maxSize items) done) →
        op.Harmless cmp (heapRun cmp (heapInit maxSize items) done).1) :
    FlatHeap cmp (heapRun cmp (heapInit maxSize items) ops) := by
  induction ops using List.reverseRecOn with
  | nil => exact .init ..
  | append_singleton ops op ih =>
    have before := ih fun done next inside =>
      harmless done next (inside.trans (List.prefix_append ops [op]))
    rw [heapRun, List.foldl_append]
    exact before.step (harmless ops op (List.prefix_refl _) before)

/-- The heap is in order all along a run, whatever the order of the items, just
when every call of it is harmless. -/
theorem heapRun_minHeap_iff (maxSize : Nat) (items : Ptr → HeapItem) (ops : List HeapOp) :
    (∀ done, done <+: ops → MinHeap cmp (heapRun cmp (heapInit maxSize items) done)) ↔
      ∀ done op, done ++ [op] <+: ops →
        op.Harmless cmp (heapRun cmp (heapInit maxSize items) done).1 := by
  have next (done : List HeapOp) (op : HeapOp) :
      heapRun cmp (heapInit maxSize items) (done ++ [op]) =
        heapStep cmp (heapRun cmp (heapInit maxSize items) done) op := by
    rw [heapRun, List.foldl_append]
    rfl
  constructor
  · intro heaps
    have harmless (done : List HeapOp) (op : HeapOp) (inside : done ++ [op] <+: ops)
        (flat : FlatHeap cmp (heapRun cmp (heapInit maxSize items) done)) :
        op.Harmless cmp (heapRun cmp (heapInit maxSize items) done).1 :=
      flat.harmless (next done op ▸ heaps _ inside)
    intro done op inside
    refine harmless done op inside (.run fun first second within => ?_)
    exact harmless first second (within.trans ((List.prefix_append done [op]).trans inside))
  · intro harmless done inside
    exact (FlatHeap.run fun first second within _ =>
      harmless first second (within.trans inside)).heap

end

/-- Items by their last digit. -/
def lastDigit (a b : Nat) : Bool := decide (a % 10 < b % 10)

instance : IsStrictWeakOrder Ptr (fun a b => lastDigit a b = true) where
  irrefl a := by simp [lastDigit]
  trans a b c := by
    simp only [lastDigit, decide_eq_true_eq]
    exact Nat.lt_trans
  incomp_trans a b c := by
    simp only [lastDigit, decide_eq_true_eq]
    intro first second
    omega

/-- Three items with the same key, the last of which is removed. -/
theorem heapRun_minHeap_iff_equal : MinHeap lastDigit (heapRun lastDigit
    (heapInit 0 fun _ => ⟨0, false⟩)
    [.insert 13 true, .insert 23 true, .insert 33 true, .remove 2]) := by
  refine (heapRun_minHeap_iff 0 _ _).mpr (fun done op inside => ?_) _ (List.prefix_refl _)
  obtain ⟨rest, whole⟩ := inside
  rcases done with _ | ⟨first, _ | ⟨second, _ | ⟨third, _ | ⟨fourth, done⟩⟩⟩⟩
  · cases whole
    exact .inr ⟨by decide, by decide⟩
  · cases whole
    exact .inr ⟨by decide, by decide⟩
  · cases whole
    exact .inr ⟨by decide, by decide⟩
  · cases whole
    exact show 3 ≤ 3 by decide
  · simp at whole

/-- Two timers, the second of which ends later. -/
theorem heapRun_twoTimers : ¬ MinHeap (fun a b => decide (a < b))
    (heapRun (fun a b => decide (a < b)) (heapInit 0 fun _ => ⟨0, false⟩)
      [.insert 1 true, .insert 2 true]) := by
  intro heap
  exact absurd (heap.front 2 rfl 1 (by decide)) (by decide)

end Serval.Servd
