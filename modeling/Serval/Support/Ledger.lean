import Mathlib.Data.List.Count
import Mathlib.Data.List.Perm.Basic

/-!
# Ledgers

A trace of calls, some of which take a thing and some of which give one away.
The trace balances when the things taken are those still held and those given
away, each as often as it occurs.
-/

namespace Serval.Support

variable {γ ρ : Type} {took gave : γ → Option ρ} {held held' : List ρ} {trace more : List γ}

def Balanced (took gave : γ → Option ρ) (held : List ρ) (trace : List γ) : Prop :=
  (trace.filterMap took).Perm (held ++ trace.filterMap gave)

namespace Balanced

theorem nil : Balanced took gave [] [] := List.Perm.refl []

/-- The calls that follow account for the change of what is held. -/
theorem append (balanced : Balanced took gave held trace)
    (change : (held ++ more.filterMap took).Perm (held' ++ more.filterMap gave)) :
    Balanced took gave held' (trace ++ more) := by
  rw [Balanced, List.filterMap_append, List.filterMap_append]
  calc trace.filterMap took ++ more.filterMap took
    _ |>.Perm ((held ++ trace.filterMap gave) ++ more.filterMap took) :=
        List.Perm.append_right _ balanced
    _ |>.Perm (trace.filterMap gave ++ (held ++ more.filterMap took)) := by
        rw [← List.append_assoc]
        exact List.Perm.append_right _ List.perm_append_comm
    _ |>.Perm (trace.filterMap gave ++ (held' ++ more.filterMap gave)) :=
        List.Perm.append_left _ change
    _ |>.Perm (held' ++ (trace.filterMap gave ++ more.filterMap gave)) := by
        rw [← List.append_assoc, ← List.append_assoc]
        exact List.Perm.append_right _ List.perm_append_comm

end Balanced

end Serval.Support
