import Serval.Support.Heap

/-!
# Splitting a list at the first hit

Walking a linked list until some item answers a test leaves the items before
it, the item, and the items after it. The test itself may read through
pointers, so there is a version of the walk that can fault.
-/

namespace Serval.Support

variable {α : Type}

structure Split (α : Type) where
  before : List α
  item : α
  after : List α
  deriving DecidableEq

def Split.whole (split : Split α) : List α := split.before ++ split.item :: split.after

theorem Split.item_mem_whole (split : Split α) : split.item ∈ split.whole :=
  List.mem_append_right _ List.mem_cons_self

variable {split : Split α} {items : List α}

theorem Split.mem_whole_of_before {item : α} (member : item ∈ split.before) : item ∈ split.whole :=
  List.mem_append_left _ member

def splitFirst (test : α → Bool) : List α → Option (Split α)
  | [] => none
  | item :: rest =>
    if test item then some ⟨[], item, rest⟩
    else
      (splitFirst test rest).map fun split =>
        { split with before := item :: split.before }

/-- Split at the first item the test accepts; a fault of the test ends the
walk. -/
def splitFirstM (test : α → Except Fault Bool) : List α → Except Fault (Option (Split α))
  | [] => return none
  | item :: rest => do
    if ← test item then
      return some ⟨[], item, rest⟩
    let found ← splitFirstM test rest
    return found.map fun split =>
      { split with before := item :: split.before }

variable {test : α → Except Fault Bool}

theorem splitFirstM_none (refused : ∀ item ∈ items, test item = .ok false) :
    splitFirstM test items = .ok none := by
  induction items with
  | nil => rfl
  | cons item rest ih =>
    have here := refused item List.mem_cons_self
    have later := ih fun other member =>
        refused other (List.mem_cons_of_mem item member)
    simp [splitFirstM, here, later]

theorem splitFirstM_append (refused : ∀ item ∈ split.before, test item = .ok false)
    (accepted : test split.item = .ok true) :
    splitFirstM test split.whole = .ok (some split) := by
  obtain ⟨before, item, after⟩ := split
  simp only [Split.whole] at refused accepted ⊢
  induction before with
  | nil => simp [splitFirstM, accepted]
  | cons other rest ih =>
    have here := refused other List.mem_cons_self
    have later := ih fun another member =>
        refused another (List.mem_cons_of_mem other member)
    simp [splitFirstM, here, later]

theorem exists_first (total : ∀ item ∈ items, ∃ answer, test item = .ok answer) :
    (∀ item ∈ items, test item = .ok false) ∨
      ∃ split : Split α, items = split.whole ∧ test split.item = .ok true ∧
        ∀ item ∈ split.before, test item = .ok false := by
  induction items with
  | nil =>
    left
    intro item member
    cases member
  | cons item rest ih =>
    obtain ⟨answer, here⟩ := total item List.mem_cons_self
    cases answer with
    | true =>
      right
      refine ⟨⟨[], item, rest⟩, rfl, here, ?_⟩
      intro other member
      cases member
    | false =>
      rcases ih fun other member =>
          total other (List.mem_cons_of_mem item member) with
        refused | ⟨split, together, accepted, refused⟩
      · left
        intro other member
        rcases List.mem_cons.mp member with rfl | member
        · exact here
        · exact refused other member
      right
      refine ⟨{ split with before := item :: split.before }, ?_, accepted, ?_⟩
      · rw [together]
        rfl
      · intro other member
        rcases List.mem_cons.mp member with rfl | member
        · exact here
        · exact refused other member

theorem splitFirst_eq_none_iff {test : α → Bool} :
    splitFirst test items = none ↔ ∀ item ∈ items, test item = false := by
  induction items with
  | nil => simp [splitFirst]
  | cons item rest ih =>
    by_cases here : test item = true
    · simp [splitFirst, here]
    · simp [splitFirst, here, ih]

theorem splitFirst_eq_some {test : α → Bool} (found : splitFirst test items = some split) :
    items = split.whole ∧ test split.item = true ∧
      ∀ item ∈ split.before, test item = false := by
  induction items generalizing split with
  | nil => cases found
  | cons item rest ih =>
    by_cases here : test item = true
    · simp only [splitFirst, here, if_true, Option.some.injEq] at found
      subst found
      simp [Split.whole, here]
    simp only [splitFirst, here, if_false, Bool.false_eq_true] at found
    obtain ⟨later, laterFound, rfl⟩ := Option.map_eq_some_iff.mp found
    obtain ⟨together, accepted, refused⟩ := ih laterFound
    refine ⟨?_, accepted, ?_⟩
    · rw [together]
      rfl
    · intro other member
      rcases List.mem_cons.mp member with rfl | member
      · simpa using here
      · exact refused other member

theorem splitFirst_append {test : α → Bool} {before after : List α} {item : α}
    (refused : ∀ other ∈ before, test other = false)
    (accepted : test item = true) :
    splitFirst test (before ++ item :: after) = some ⟨before, item, after⟩ := by
  induction before with
  | nil => simp [splitFirst, accepted]
  | cons other rest ih =>
    have here := refused other List.mem_cons_self
    have later := ih fun another member =>
        refused another (List.mem_cons_of_mem other member)
    simp [splitFirst, here, later]

end Serval.Support
