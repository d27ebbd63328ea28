import Serval.Service.Table

/-!
# The iterator over targets

`service_iter_next` gives the targets of a set one after the other; the
positions of the iterator say which are still to come.
-/

namespace Serval

open Serval.Support

def ServiceIter.targets (iter : ServiceIter) : List Target :=
  match iter.pos, iter.set with
  | none, _ => []
  | some here, some _ => here.filter iter.mode.stops
  | some here, none => here.head?.toList

theorem nextInSet_filter (mode : IterMode) (here : List Target) :
    (nextInSet mode here).1 = (here.filter mode.stops).head? ∧
      (nextInSet mode here).2.filter mode.stops = (here.filter mode.stops).tail := by
  induction here with
  | nil => exact ⟨rfl, rfl⟩
  | cons t rest ih =>
    by_cases stops : mode.stops t = true
    · simp [nextInSet, stops]
    · simpa [nextInSet, stops] using ih

variable {iter iter' : ServiceIter} {next : Option Target}

/-- What a call of `service_iter_next` that returns has done. -/
inductive ServiceIter.Steps (iter : ServiceIter) : Option Target → ServiceIter → Prop
  | ended (position : iter.pos = none) : Steps iter none { iter with pos := none, lastPos := none }
  | inSet {here : List Target} {first : TargetSet} (position : iter.pos = some here)
      (set : iter.set = some first) :
      Steps iter (nextInSet iter.mode here).1
        ⟨iter.mode, some first, some (nextInSet iter.mode here).2, some here⟩
  | single {t : Target} {rest : List Target} (position : iter.pos = some (t :: rest))
      (set : iter.set = none) :
      Steps iter (some t) ⟨iter.mode, none, none, some (t :: rest)⟩

theorem serviceIterNext_steps (run : serviceIterNext iter = .ok (next, iter')) :
    iter.Steps next iter' := by
  rw [serviceIterNext] at run
  cases position : iter.pos with
  | none =>
    simp only [position] at run
    cases run
    exact .ended position
  | some here =>
    cases set : iter.set with
    | some first =>
      simp only [position, set] at run
      cases run
      exact .inSet position set
    | none =>
      simp only [position, set] at run
      cases here with
      | nil => cases run
      | cons t rest =>
        cases run
        exact .single position set

theorem serviceIterNext_head (run : serviceIterNext iter = .ok (next, iter')) :
    next = iter.targets.head? ∧ iter'.targets = iter.targets.tail := by
  cases serviceIterNext_steps run with
  | ended position => simp [ServiceIter.targets, position]
  | inSet position set =>
    simp only [ServiceIter.targets, position, set]
    exact nextInSet_filter _ _
  | single position set => simp [ServiceIter.targets, position, set]

theorem serviceIterNext_targets (run : serviceIterNext iter = .ok (next, iter')) :
    iter.targets = next.toList ++ iter'.targets := by
  obtain ⟨rfl, rest⟩ := serviceIterNext_head run
  rw [rest]
  cases iter.targets <;> rfl

theorem serviceIterNext_none (run : serviceIterNext iter = .ok (none, iter')) : iter.targets = [] :=
  List.head?_eq_none_iff.mp (serviceIterNext_head run).1.symm

end Serval
