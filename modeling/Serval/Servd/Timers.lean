import Mathlib.Data.List.Perm.Basic
import Mathlib.Logic.Function.Basic
import Serval.Support.Heap

/-!
# The timer queue of the daemon

`common/heap.c` and `common/timer.c`. Items and timers are told apart by
their address; what a `struct heapitem` and a `struct timer` hold is kept by
address. A `struct timespec` is kept as its number of nanoseconds, without a
bound on the seconds. The sizes and indices of the heap are `unsigned int` in
the code and have no bound here; they agree as long as fewer than `2 ^ 32 - 100`
items are stored.
-/

namespace Serval.Servd

open Serval.Support

structure HeapItem where
  index : Nat
  active : Bool
  deriving DecidableEq, Repr

/-- `struct heap`; its `size` is the length of the map. -/
structure TimerHeap where
  maxSize : Nat
  map : List Ptr
  items : Ptr → HeapItem

def HEAP_DEFAULT_SIZE : Nat := 200

def HEAP_DEFAULT_INCREASE_SIZE : Nat := 100

def setIndex (items : Ptr → HeapItem) (item : Ptr) (index : Nat) : Ptr → HeapItem :=
  Function.update items item { items item with index := index }

section

variable (cmp : Ptr → Ptr → Bool)

/-- The item at `k` is within the heap and goes before the one at `i`. -/
def goesBefore (map : List Ptr) (k i : Nat) : Bool :=
  match map[k]?, map[i]? with
  | some first, some second => cmp first second
  | _, _ => false

def smallestOf (map : List Ptr) (i : Nat) : Nat :=
  let l := 2 * i + 1
  let r := l + 1
  let smallest := if goesBefore cmp map l i then l else i
  if goesBefore cmp map r smallest then r else smallest

/-- `heap_heapify`; the position grows with every round. -/
def heapHeapify (cmp : Ptr → Ptr → Bool) : Nat → TimerHeap → Nat → TimerHeap
  | 0, h, _ => h
  | fuel + 1, h, i =>
    let smallest := smallestOf cmp h.map i
    if smallest = i then h
    else
      match h.map[smallest]?, h.map[i]? with
      | some child, some here =>
        heapHeapify cmp fuel
          { h with
            map := (h.map.set smallest here).set i child
            items := setIndex (setIndex h.items here smallest) child i }
          smallest
      | _, _ => h

/-- The loop of `heap_insert`: parents that `cmp` puts before the item move
down. The result says where the item goes. -/
def insertLoop (cmp : Ptr → Ptr → Bool) (item : Ptr) : Nat → List Ptr → (Ptr → HeapItem) → Nat →
      List Ptr × (Ptr → HeapItem) × Nat
  | 0, map, items, i => (map, items, i)
  | fuel + 1, map, items, i =>
    match map[(i - 1) / 2]? with
    | none => (map, items, i)
    | some parent =>
      if 0 < i && cmp parent item then
        insertLoop cmp item fuel (map.set i parent)
          (setIndex items parent i) ((i - 1) / 2)
      else (map, items, i)

/-- `heap_insert`; `grow` is set when a larger map can be allocated. -/
def heapInsert (h : TimerHeap) (item : Ptr) (grow : Bool) :
    Option TimerHeap :=
  let full := decide (h.maxSize ≤ h.map.length)
  if full && !grow then none
  else
    let (map, items, i) := insertLoop cmp item h.map.length (h.map ++ [item]) h.items h.map.length
    some
      { maxSize :=
          if full then h.maxSize + HEAP_DEFAULT_INCREASE_SIZE else h.maxSize
        map := map.set i item
        items := Function.update items item ⟨i, true⟩ }

/-- `heap_remove`. The last item takes the place of the one removed, and its
`index` is only set when it moves on from there. -/
def heapRemove (h : TimerHeap) (index : Nat) : Option (Ptr × TimerHeap) :=
  match h.map[index]?, h.map.getLast? with
  | some item, some last =>
    let map := (h.map.set index last).dropLast
    let h := heapHeapify cmp map.length { h with map := map } index
    some (item, { h with items := Function.update h.items item ⟨0, false⟩ })
  | _, _ => none

end

/-- `struct timer`: how long it runs, in microseconds and as a `long`, and when
it ends. -/
structure Timer where
  expires : Int64
  timeout : Int
  deriving DecidableEq, Repr

structure TimerQueue where
  queue : TimerHeap
  timers : Ptr → Timer

/-- `timer_queue_init`, with timers as `timer_init` leaves them. -/
def timerQueueInit : TimerQueue where
  queue := ⟨HEAP_DEFAULT_SIZE, [], fun _ => ⟨0, false⟩⟩
  timers := fun _ => ⟨0, 0⟩

def heapCmp (timers : Ptr → Timer) (t1 t2 : Ptr) : Bool := (timers t1).timeout < (timers t2).timeout

section

variable (tq : TimerQueue) (t : Ptr)

def timerScheduled : Bool := (tq.queue.items t).active

def timerSecs (s : Nat) : Int64 := Int64.ofNat s * 1000000

/-- `timer_del` removes what is at the index of the timer. -/
def timerDel : TimerQueue :=
  match heapRemove (heapCmp tq.timers) tq.queue (tq.queue.items t).index with
  | some (_, queue) => { tq with queue := queue }
  | none => tq

/-- The part of `timer_mod` that takes the timer out of the queue. -/
def timerUnschedule (expires : UInt64) :
    TimerQueue :=
  if timerScheduled tq t then
    let tq := timerDel tq t
    { tq with
      timers := Function.update tq.timers t
        { tq.timers t with expires := expires.toInt64 } }
  else tq

/-- `timer_mod`; `clock` is what `gettime` reads in the thread that calls. The
product with 1000 is one of two `long`. -/
def timerMod (expires : UInt64) (clock : Nat) (grow : Bool) : Int × TimerQueue :=
  let tq := timerUnschedule tq t expires
  let timer := tq.timers t
  let timers := Function.update tq.timers t
      { timer with timeout := clock + (timer.expires * 1000).toInt }
  match heapInsert (heapCmp timers) tq.queue t grow with
  | some queue => (1, ⟨queue, timers⟩)
  | none => (-1, { tq with timers := timers })

def timerAdd (clock : Nat) (grow : Bool) : Int × TimerQueue :=
  if timerScheduled tq t then (-1, tq)
  else timerMod tq t (tq.timers t).expires.toUInt64 clock grow

def timerScheduleSecs (s clock : Nat) (grow : Bool) : Int × TimerQueue :=
  let timers := Function.update tq.timers t { tq.timers t with expires := timerSecs s }
  timerAdd { tq with timers := timers } t clock grow

/-- The timer that `timer_handle_timeout` takes from the queue, to call its
callback. -/
def timerHandleTimeout : Option (Ptr × TimerQueue) :=
  match heapRemove (heapCmp tq.timers) tq.queue 0 with
  | some (t, queue) => some (t, { tq with queue := queue })
  | none => none

end

def SameActive (before after : Ptr → HeapItem) : Prop :=
  ∀ item, (after item).active = (before item).active

theorem setIndex_sameActive (items : Ptr → HeapItem) (item : Ptr) (index : Nat) :
    SameActive items (setIndex items item index) := by
  intro other
  rw [setIndex, Function.update_apply]
  split_ifs with same
  · rw [same]
  · rfl

theorem SameActive.trans {first second third : Ptr → HeapItem} (before : SameActive first second)
    (after : SameActive second third) : SameActive first third :=
  fun item => (after item).trans (before item)

variable (cmp : Ptr → Ptr → Bool) {item : Ptr}

theorem heapHeapify_spec (fuel : Nat) (h : TimerHeap) (i : Nat) :
    (heapHeapify cmp fuel h i).map.Perm h.map ∧ (heapHeapify cmp fuel h i).maxSize = h.maxSize ∧
      SameActive h.items (heapHeapify cmp fuel h i).items := by
  induction fuel generalizing h i with
  | zero => exact ⟨.refl _, rfl, fun _ => rfl⟩
  | succ fuel ih =>
    rw [heapHeapify]
    split_ifs with stays
    · exact ⟨.refl _, rfl, fun _ => rfl⟩
    split
    · rename_i child here atChild atHere
      obtain ⟨childIn, rfl⟩ := List.getElem?_eq_some_iff.mp atChild
      obtain ⟨hereIn, rfl⟩ := List.getElem?_eq_some_iff.mp atHere
      obtain ⟨perm, size, active⟩ := ih _ _
      refine ⟨perm.trans ?_, size, ?_⟩
      · exact List.set_set_perm childIn hereIn
      · exact ((setIndex_sameActive _ _ _).trans (setIndex_sameActive _ _ _)).trans active
    · exact ⟨.refl _, rfl, fun _ => rfl⟩

theorem insertLoop_spec (item : Ptr) (fuel : Nat) {map : List Ptr}
    (items : Ptr → HeapItem) {i : Nat} (inside : i < map.length) :
    ((insertLoop cmp item fuel map items i).1.set
        (insertLoop cmp item fuel map items i).2.2 item).Perm
      (map.set i item) ∧ SameActive items (insertLoop cmp item fuel map items i).2.1 := by
  induction fuel generalizing map items i with
  | zero => exact ⟨.refl _, fun _ => rfl⟩
  | succ fuel ih =>
    rw [insertLoop]
    split
    · exact ⟨.refl _, fun _ => rfl⟩
    rename_i parent above
    split_ifs with moves
    · rw [Bool.and_eq_true, decide_eq_true_eq] at moves
      have up : (i - 1) / 2 < (map.set i item).length := by
        rw [List.length_set]
        omega
      have here : i < (map.set i item).length := by rwa [List.length_set]
      obtain ⟨perm, active⟩ := @ih (map.set i parent) (setIndex items parent i)
          ((i - 1) / 2) (by rw [List.length_set]; omega)
      refine ⟨perm.trans ?_, (setIndex_sameActive _ _ _).trans active⟩
      have swapped := List.set_set_perm here up
      obtain ⟨_, same⟩ := List.getElem?_eq_some_iff.mp above
      rw [List.getElem_set_self, List.getElem_set_ne (by omega), same, List.set_set] at swapped
      exact swapped
    · exact ⟨.refl _, fun _ => rfl⟩

theorem heapInsert_spec {h : TimerHeap} {grow : Bool}
    (room : h.map.length < h.maxSize ∨ grow = true)
    (fits : h.map.length ≤ h.maxSize) :
    ∃ h', heapInsert cmp h item grow = some h' ∧
      h'.map.Perm (item :: h.map) ∧ h'.map.length ≤ h'.maxSize ∧ (h'.items item).active = true ∧
      ∀ other, other ≠ item → (h'.items other).active = (h.items other).active := by
  have inside : h.map.length < (h.map ++ [item]).length := by simp
  obtain ⟨perm, active⟩ := insertLoop_spec cmp item h.map.length h.items inside
  have whole : (h.map ++ [item]).set h.map.length item = h.map ++ [item] := by simp
  rw [whole] at perm
  have perm := perm.trans (List.perm_append_singleton item h.map)
  have able : ¬ (decide (h.maxSize ≤ h.map.length) && !grow) = true := by
    rcases room with less | grows
    · simp [Nat.not_le.mpr less]
    · simp [grows]
  refine ⟨_, if_neg able, perm, ?_, ?_, ?_⟩
  · have length := perm.length_eq
    dsimp only at length ⊢
    rw [length, List.length_cons]
    split_ifs with full
    · rw [HEAP_DEFAULT_INCREASE_SIZE]
      omega
    · rw [decide_eq_true_eq] at full
      omega
  · dsimp only
    rw [Function.update_self]
  · intro other different
    dsimp only
    rw [Function.update_of_ne different]
    exact active other

theorem set_dropLast_perm {map : List Ptr} {index : Nat} {last : Ptr}
    (here : map[index]? = some item) (ends : map.getLast? = some last) :
    (item :: (map.set index last).dropLast).Perm map := by
  obtain ⟨front, rfl⟩ := List.getLast?_eq_some_iff.mp ends
  obtain ⟨inside, rfl⟩ := List.getElem?_eq_some_iff.mp here
  rw [List.length_append] at inside
  rcases Nat.lt_succ_iff_lt_or_eq.mp inside with less | rfl
  · rw [List.set_append_left _ _ less, List.dropLast_concat, List.getElem_append_left less]
    calc
      (front[index] :: front.set index last).Perm
          (front[index] :: last :: front.eraseIdx index) :=
        (List.set_perm_cons_eraseIdx less last).cons _
      _ |>.Perm (last :: front[index] :: front.eraseIdx index) := .swap ..
      _ |>.Perm (last :: front) := by
        have back := List.set_perm_cons_eraseIdx less front[index]
        rw [List.set_getElem_self] at back
        exact back.symm.cons _
      _ |>.Perm (front ++ [last]) := (List.perm_append_singleton last front).symm
  · simpa using (List.perm_append_singleton last front).symm

theorem heapRemove_spec {h : TimerHeap} {index : Nat} (here : h.map[index]? = some item) :
    ∃ h', heapRemove cmp h index = some (item, h') ∧
      (item :: h'.map).Perm h.map ∧ h'.maxSize = h.maxSize ∧ (h'.items item).active = false ∧
      ∀ other, other ≠ item → (h'.items other).active = (h.items other).active := by
  have some : h.map ≠ [] := by
    rintro none
    rw [none] at here
    cases here
  have ends := List.getLast?_eq_some_getLast some
  obtain ⟨after, made⟩ : ∃ after, after =
        heapHeapify cmp (h.map.set index (h.map.getLast some)).dropLast.length
          { h with map := (h.map.set index (h.map.getLast some)).dropLast }
          index :=
    ⟨_, rfl⟩
  have run : heapRemove cmp h index = .some (item,
          { after with
            items := Function.update after.items item ⟨0, false⟩ }) := by
    rw [heapRemove, here, ends, made]
  obtain ⟨perm, size, active⟩ := heapHeapify_spec cmp _ _ index
  rw [← made] at perm size active
  refine ⟨_, run, ?_, size, ?_, ?_⟩
  · exact (perm.cons item).trans (set_dropLast_perm here ends)
  · simp only [Function.update_self]
  · intro other different
    simp only [Function.update_of_ne different]
    exact active other

/-! ## What the queue holds -/

/-- The timers in the queue are those that are scheduled, once each. -/
structure TimerQueue.Sound (tq : TimerQueue) : Prop where
  nodup : tq.queue.map.Nodup
  active : ∀ t, t ∈ tq.queue.map ↔ timerScheduled tq t = true
  fits : tq.queue.map.length ≤ tq.queue.maxSize

theorem timerQueueInit_sound : timerQueueInit.Sound where
  nodup := List.nodup_nil
  active := by
    intro t
    simp [timerQueueInit, timerScheduled]
  fits := Nat.zero_le _

namespace TimerQueue.Sound

variable {tq : TimerQueue} {t : Ptr} {expires : UInt64} {clock : Nat} {grow : Bool}

theorem insert (sound : tq.Sound) (out : t ∉ tq.queue.map)
    (room : tq.queue.map.length < tq.queue.maxSize ∨ grow = true)
    (timers : Ptr → Timer) :
    ∃ queue, heapInsert (heapCmp timers) tq.queue t grow = some queue ∧ Sound ⟨queue, timers⟩ ∧
        ∀ other, other ∈ queue.map ↔ other = t ∨ other ∈ tq.queue.map := by
  obtain ⟨queue, run, perm, fits, here, others⟩ := heapInsert_spec (heapCmp timers) room sound.fits
  have member (other : Ptr) : other ∈ queue.map ↔ other = t ∨ other ∈ tq.queue.map := by
    rw [perm.mem_iff, List.mem_cons]
  refine ⟨queue, run, ⟨?_, ?_, fits⟩, member⟩
  · rw [perm.nodup_iff]
    exact List.nodup_cons.mpr ⟨out, sound.nodup⟩
  · intro other
    rw [member, timerScheduled]
    by_cases same : other = t
    · rw [same, here]
      simp
    · rw [others other same, ← timerScheduled, ← sound.active other]
      simp [same]

theorem remove (sound : tq.Sound) {index : Nat} (here : tq.queue.map[index]? = some t) : ∃ queue,
      heapRemove (heapCmp tq.timers) tq.queue index = some (t, queue) ∧ Sound ⟨queue, tq.timers⟩ ∧
        (∀ other, other ∈ queue.map ↔ other ≠ t ∧ other ∈ tq.queue.map) ∧
        queue.map.length < queue.maxSize := by
  obtain ⟨queue, run, perm, size, gone, others⟩ := heapRemove_spec (heapCmp tq.timers) here
  have nodup := perm.nodup_iff.mpr sound.nodup
  rw [List.nodup_cons] at nodup
  have member (other : Ptr) : other ∈ queue.map ↔ other ≠ t ∧ other ∈ tq.queue.map := by
    rw [← perm.mem_iff, List.mem_cons]
    constructor
    · intro inside
      exact ⟨fun same => nodup.1 (same ▸ inside), .inr inside⟩
    · rintro ⟨different, same | inside⟩
      · exact absurd same different
      · exact inside
  have shorter : queue.map.length < queue.maxSize := by
    have length := perm.length_eq
    have fits := sound.fits
    rw [List.length_cons] at length
    omega
  refine ⟨queue, run, ⟨nodup.2, ?_, Nat.le_of_lt shorter⟩, member, shorter⟩
  intro other
  rw [member, timerScheduled]
  by_cases same : other = t
  · rw [same, gone]
    simp
  · rw [others other same, ← timerScheduled, ← sound.active other]
    simp [same]

theorem mod_idle (sound : tq.Sound) (idle : timerScheduled tq t = false)
    (room : tq.queue.map.length < tq.queue.maxSize ∨ grow = true) :
    ∃ tq', timerMod tq t expires clock grow = (1, tq') ∧ tq'.Sound ∧
      (∀ other, other ∈ tq'.queue.map ↔ other = t ∨ other ∈ tq.queue.map) ∧
      (tq'.timers t).timeout = clock + ((tq.timers t).expires * 1000).toInt ∧
      ∀ other, other ≠ t → tq'.timers other = tq.timers other := by
  have out : t ∉ tq.queue.map := by
    rw [sound.active, idle]
    exact Bool.false_ne_true
  have unscheduled : timerUnschedule tq t expires = tq :=
    if_neg (by rw [idle]; exact Bool.false_ne_true)
  obtain ⟨queue, run, sound', member⟩ := sound.insert out room (Function.update tq.timers t
        { tq.timers t with
          timeout := clock + ((tq.timers t).expires * 1000).toInt })
  refine ⟨⟨queue, _⟩, ?_, sound', member, ?_, ?_⟩
  · rw [timerMod, unscheduled]
    rw [run]
  · dsimp only
    rw [Function.update_self]
  · intro other different
    exact Function.update_of_ne different ..

theorem mod_scheduled (sound : tq.Sound) (here : tq.queue.map[(tq.queue.items t).index]? = some t) :
    ∃ tq', timerMod tq t expires clock grow = (1, tq') ∧ tq'.Sound ∧
      (∀ other, other ∈ tq'.queue.map ↔ other ∈ tq.queue.map) ∧
      (tq'.timers t).timeout = clock + (expires.toInt64 * 1000).toInt ∧
      ∀ other, other ≠ t → tq'.timers other = tq.timers other := by
  have inside : t ∈ tq.queue.map := List.mem_of_getElem? here
  have scheduled := (sound.active t).mp inside
  obtain ⟨middle, removed, sound₁, member₁, room⟩ := sound.remove here
  have unscheduled : timerUnschedule tq t expires = ⟨middle, Function.update tq.timers t
          { tq.timers t with expires := expires.toInt64 }⟩ := by
    rw [timerUnschedule, if_pos scheduled, timerDel, removed]
  obtain ⟨queue, run, sound', member⟩ := @insert ⟨middle, tq.timers⟩ t grow sound₁
      (fun still => ((member₁ t).mp still).1 rfl) (.inl room)
      (Function.update (Function.update tq.timers t { tq.timers t with expires := expires.toInt64 })
        t ⟨expires.toInt64, clock + (expires.toInt64 * 1000).toInt⟩)
  refine ⟨⟨queue, _⟩, ?_, sound', ?_, ?_, ?_⟩
  · rw [timerMod, unscheduled]
    simp only [Function.update_self]
    rw [run]
  · intro other
    rw [member, member₁]
    by_cases same : other = t
    · simp [same, inside]
    · simp [same]
  · dsimp only
    rw [Function.update_self]
  · intro other different
    dsimp only
    rw [Function.update_of_ne different, Function.update_of_ne different]

theorem schedule (sound : tq.Sound) (idle : timerScheduled tq t = false) (s : Nat)
    (room : tq.queue.map.length < tq.queue.maxSize ∨ grow = true) :
    ∃ tq', timerScheduleSecs tq t s clock grow = (1, tq') ∧ tq'.Sound ∧
      (∀ other, other ∈ tq'.queue.map ↔ other = t ∨ other ∈ tq.queue.map) ∧
      (tq'.timers t).timeout = clock + (timerSecs s * 1000).toInt ∧
      ∀ other, other ≠ t → tq'.timers other = tq.timers other := by
  have sound₁ : Sound ⟨tq.queue, Function.update tq.timers t
        { tq.timers t with expires := timerSecs s }⟩ :=
    ⟨sound.nodup, sound.active, sound.fits⟩
  obtain ⟨tq', run, sound', member, timeout, others⟩ := @mod_idle _ t (Function.update tq.timers t
        { tq.timers t with expires := timerSecs s } t).expires.toUInt64
      clock grow sound₁ idle room
  refine ⟨tq', ?_, sound', member, ?_, ?_⟩
  · rw [timerScheduleSecs, timerAdd, if_neg]
    · exact run
    · exact fun scheduled => Bool.false_ne_true (idle.symm.trans scheduled)
  · rw [timeout]
    dsimp only
    rw [Function.update_self]
  · intro other different
    rw [others other different]
    exact Function.update_of_ne different ..

theorem fire (sound : tq.Sound) (front : tq.queue.map[0]? = some t) :
    ∃ tq', timerHandleTimeout tq = some (t, tq') ∧ tq'.Sound ∧
      (∀ other, other ∈ tq'.queue.map ↔ other ≠ t ∧ other ∈ tq.queue.map) ∧
      tq'.timers = tq.timers := by
  obtain ⟨queue, run, sound', member, -⟩ := sound.remove front
  exact ⟨⟨queue, tq.timers⟩, by rw [timerHandleTimeout, run], sound', member, rfl⟩

end TimerQueue.Sound

end Serval.Servd
