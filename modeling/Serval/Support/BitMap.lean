import Mathlib.Data.Finmap
import Mathlib.Data.Finset.Card

/-!
# Finite maps keyed by bit strings

The number of keys after an update, and what it means for one key to be the
longest among those that begin a given bit string.
-/

namespace Serval.Support

abbrev BitMap (α : Type) := Finmap fun _ : List Bool => α

namespace BitMap

variable {α : Type}

theorem keys_insert (m : BitMap α) (s : List Bool) (value : α) :
    (m.insert s value).keys = insert s m.keys := by
  ext t
  simp [Finmap.mem_keys, Finmap.mem_insert]

variable {m : BitMap α} {s : List Bool}

theorem card_keys_insert (value : α) (absent : m.lookup s = none) :
    (m.insert s value).keys.card = m.keys.card + 1 := by
  rw [keys_insert, Finset.card_insert_of_notMem]
  simpa [Finmap.mem_keys] using Finmap.lookup_eq_none.mp absent

theorem card_keys_replace {old : α} (value : α) (present : m.lookup s = some old) :
    (m.insert s value).keys.card = m.keys.card := by
  rw [keys_insert, Finset.insert_eq_of_mem]
  exact Finmap.mem_keys.mpr (Finmap.mem_of_lookup_eq_some present)

theorem card_keys_erase {old : α} (present : m.lookup s = some old) :
    (m.erase s).keys.card + 1 = m.keys.card := by
  rw [Finmap.keys_erase]
  exact Finset.card_erase_add_one (Finmap.mem_keys.mpr (Finmap.mem_of_lookup_eq_some present))

theorem erase_of_absent (absent : m.lookup s = none) : m.erase s = m := by
  apply Finmap.ext_lookup
  intro t
  by_cases same : t = s
  · subst same
    rw [Finmap.lookup_erase, absent]
  · rw [Finmap.lookup_erase_ne same]

theorem lookup_insert_eq (m : BitMap α) (s t : List Bool) (value : α) :
    (m.insert s value).lookup t =
      if t = s then some value else m.lookup t := by
  by_cases same : t = s
  · subst same
    simp
  · rw [Finmap.lookup_insert_of_ne m same, if_neg same]

theorem lookup_erase_eq (m : BitMap α) (s t : List Bool) :
    (m.erase s).lookup t = if t = s then none else m.lookup t := by
  by_cases same : t = s
  · subst same
    simp
  · rw [Finmap.lookup_erase_ne same, if_neg same]

def assign (m : BitMap α) (s : List Bool) : Option α → BitMap α
  | some value => m.insert s value
  | none => m.erase s

theorem lookup_assign (m : BitMap α) (s t : List Bool) (value : Option α) :
    (m.assign s value).lookup t = if t = s then value else m.lookup t := by
  cases value with
  | none => exact lookup_erase_eq m s t
  | some value => exact lookup_insert_eq m s t value

theorem assign_none_insert (absent : m.lookup s = none) (value : α) :
    assign (m.insert s value) s none = m := by
  apply Finmap.ext_lookup
  intro t
  rw [lookup_assign, lookup_insert_eq]
  by_cases same : t = s
  · rw [if_pos same, same, absent]
  · rw [if_neg same, if_neg same]

theorem mem_of_mem_assign {m : BitMap α} {s t : List Bool} {old : α} {value : Option α}
    (held : m.lookup s = some old) (present : t ∈ m.assign s value) :
    t ∈ m := by
  by_cases same : t = s
  · rw [same]
    exact Finmap.mem_of_lookup_eq_some held
  · rw [← Finmap.lookup_isSome, lookup_assign, if_neg same, Finmap.lookup_isSome] at present
    exact present

theorem mem_of_lookup_bind {m' : BitMap α} {f : α → Option α}
    (each : ∀ s, m'.lookup s = (m.lookup s).bind f) (present : s ∈ m') :
    s ∈ m := by
  rw [← Finmap.lookup_isSome, each] at present
  rw [← Finmap.lookup_isSome]
  exact Option.isSome_of_isSome_bind present

theorem card_keys_eq_zero_iff (m : BitMap α) : m.keys.card = 0 ↔ m = ∅ := by
  constructor
  · intro none
    apply Finmap.ext_lookup
    intro t
    apply Finmap.lookup_eq_none.mpr
    rw [← Finmap.mem_keys, Finset.card_eq_zero.mp none]
    exact Finset.notMem_empty t
  · rintro rfl
    simp

end BitMap

/-- `s` is the longest of the strings that begin `key` and satisfy `holds`. -/
structure IsLongest (holds : List Bool → Prop) (key s : List Bool) : Prop where
  begins : s <+: key
  here : holds s
  longest : ∀ t, t <+: key → holds t → t.length ≤ s.length

theorem IsLongest.unique {holds : List Bool → Prop} {key s t : List Bool}
    (first : IsLongest holds key s) (second : IsLongest holds key t) :
    s = t := by
  have sameLength : s.length = t.length := Nat.le_antisymm
      (second.longest s first.begins first.here)
      (first.longest t second.begins second.here)
  exact (List.prefix_of_prefix_length_le first.begins second.begins
    sameLength.le).eq_of_length sameLength

end Serval.Support
