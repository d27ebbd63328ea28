import Mathlib.Data.List.Basic

/-!
# Memory cells

A heap is a row of cells. Allocation appends a cell, so an address is never
handed out twice, and a freed cell stays empty for ever. Code that reaches
through a pointer runs in `Except Fault`: reading, writing or freeing a cell
that is not live is a fault, and so is a read past the end of a buffer.
-/

namespace Serval.Support

universe u

/-- What a piece of pointer code can do wrong. -/
inductive Fault where
  /-- A null pointer was followed. -/
  | null
  /-- A cell was used after it had been freed. -/
  | freed
  /-- A buffer was read past its end. -/
  | bounds
  /-- A loop did not finish within the number of rounds given to it. -/
  | fuel
  deriving DecidableEq, Repr

variable {α β : Type u}

@[simp]
theorem ok_bind (value : α) (next : α → Except Fault β) : (Except.ok value >>= next) = next value :=
  rfl

@[simp]
theorem error_bind (fault : Fault) (next : α → Except Fault β) :
    ((Except.error fault : Except Fault α) >>= next) = Except.error fault :=
  rfl

@[simp]
theorem pure_eq_ok (value : α) : (pure value : Except Fault α) = Except.ok value := rfl

/-- A computation that ends well has run its first part to the end. -/
theorem of_bind {first : Except Fault α} {next : α → Except Fault β} {result : β}
    (run : (first >>= next) = Except.ok result) :
    ∃ value, first = Except.ok value ∧ next value = Except.ok result := by
  cases first with
  | error fault => cases run
  | ok value => exact ⟨value, rfl, run⟩

abbrev Ptr := Nat

/-- Cell `p` of the row is live when it holds a value. -/
structure Heap (ν : Type u) where
  cells : List (Option ν)

namespace Heap

variable {ν : Type u}

def empty : Heap ν := ⟨[]⟩

section

variable (h : Heap ν) (p : Ptr)

def get? : Option ν := (h.cells[p]?).join

def set (h : Heap ν) (p : Ptr) (cell : Option ν) : Heap ν := ⟨h.cells.set p cell⟩

def read : Except Fault ν :=
  match h.get? p with
  | some value => .ok value
  | none => .error .freed

def write (value : ν) : Except Fault (Heap ν) :=
  match h.get? p with
  | some _ => .ok (h.set p (some value))
  | none => .error .freed

def free : Except Fault (Heap ν) :=
  match h.get? p with
  | some _ => .ok (h.set p none)
  | none => .error .freed

def next : Ptr := h.cells.length

def alloc (value : ν) : Heap ν := ⟨h.cells ++ [some value]⟩

end

variable {h : Heap ν} {p : Ptr} {value : ν}

theorem mem_cells_of_get? (live : h.get? p = some value) : some value ∈ h.cells := by
  unfold get? at live
  rw [Option.join_eq_some_iff] at live
  exact List.mem_of_getElem? live

theorem lt_next_of_get? (live : h.get? p = some value) : p < h.next := by
  by_contra beyond
  have absent : h.cells[p]? = none := List.getElem?_eq_none (Nat.le_of_not_lt beyond)
  simp [get?, absent] at live

@[simp]
theorem get?_next (h : Heap ν) : h.get? h.next = none := by
  simp [get?, next]

theorem get?_set_self (cell : Option ν) (live : h.get? p = some value) :
    (h.set p cell).get? p = cell := by
  have bound : p < h.cells.length := lt_next_of_get? live
  simp [get?, set, bound]

@[simp]
theorem get?_set_ne {q : Ptr} (cell : Option ν) (different : q ≠ p) :
    (h.set p cell).get? q = h.get? q := by
  simp [get?, set, Ne.symm different]

theorem set_of_live (live : h.get? p = some value) : h.set p (some value) = h := by
  have bound : p < h.cells.length := lt_next_of_get? live
  have held : h.cells[p] = some value := by simpa [get?, bound] using live
  cases h with
  | mk cells =>
    simp only [set, Heap.mk.injEq]
    rw [← held]
    exact List.set_getElem_self bound

@[simp]
theorem get?_alloc_next (h : Heap ν) (value : ν) : (h.alloc value).get? h.next = some value := by
  simp [get?, alloc, next]

theorem get?_alloc_of_ne (value : ν) (old : p ≠ h.next) : (h.alloc value).get? p = h.get? p := by
  rcases Nat.lt_or_gt_of_ne old with below | above
  · have bound : p < h.cells.length := below
    simp [get?, alloc, List.getElem?_append_left bound]
  have beyond : h.cells.length < p := above
  have long : (h.cells ++ [some value]).length ≤ p := by
    simp
    omega
  simp only [get?, alloc, List.getElem?_eq_none long, List.getElem?_eq_none (Nat.le_of_lt beyond)]

@[simp]
theorem next_set (h : Heap ν) (p : Ptr) (cell : Option ν) : (h.set p cell).next = h.next := by
  simp [next, set]

theorem get?_set_alloc_next (h : Heap ν) (p : Ptr) (cell : Option ν) (value : ν) :
    ((h.set p cell).alloc value).get? h.next = some value := by
  have fresh := get?_alloc_next (h.set p cell) value
  rwa [next_set] at fresh

theorem read_of_live (live : h.get? p = some value) : h.read p = .ok value := by
  simp [read, live]

theorem write_of_live {old : ν} (value : ν) (live : h.get? p = some old) :
    h.write p value = .ok (h.set p (some value)) := by
  simp [write, live]

theorem free_of_live {old : ν} (live : h.get? p = some old) : h.free p = .ok (h.set p none) := by
  simp [free, live]

end Heap

end Serval.Support
