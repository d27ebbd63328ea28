import Serval.Support.Heap

/-!
# Loops that keep some of what they walk over

A loop walks over positions, counts those it keeps, and changes a state of its
own. What it computes is said by a walk over a list that collects results.
-/

namespace Serval.Support

universe u

/-- The two computations end in related results, or in the same fault. -/
inductive Agrees {α β : Type u} (related : α → β → Prop) : Except Fault α → Except Fault β → Prop
  | ok {a : α} {b : β} (here : related a b) : Agrees related (.ok a) (.ok b)
  | error (fault : Fault) : Agrees related (.error fault) (.error fault)

namespace Agrees

variable {α β γ δ : Type u} {related : α → β → Prop}

theorem same {run : Except Fault α} :
    Agrees (fun first second => first = second ∧ run = .ok first) run
      run := by
  cases run with
  | error fault => exact .error fault
  | ok result => exact .ok ⟨rfl, rfl⟩

variable {second : Except Fault β}

theorem bind {further : γ → δ → Prop} {first : Except Fault α}
    {f : α → Except Fault γ} {g : β → Except Fault δ}
    (agrees : Agrees related first second)
    (next : ∀ a b, related a b → Agrees further (f a) (g b)) :
    Agrees further (first >>= f) (second >>= g) := by
  cases agrees with
  | ok here => exact next _ _ here
  | error fault => exact .error fault

theorem ok_left {a : α} (agrees : Agrees related (.ok a) second) :
    ∃ b, second = .ok b ∧ related a b := by
  cases agrees with
  | ok here => exact ⟨_, rfl, here⟩

theorem ok_right {b : β} {first : Except Fault α} (agrees : Agrees related first (.ok b)) :
    ∃ a, first = .ok a ∧ related a b := by
  cases agrees with
  | ok here => exact ⟨_, rfl, here⟩

theorem error_left {fault : Fault} (agrees : Agrees related (.error fault) second) :
    second = .error fault := by
  cases agrees with
  | error fault => rfl

theorem mono {weaker : α → β → Prop} {first : Except Fault α} (agrees : Agrees related first second)
    (implies : ∀ a b, related a b → weaker a b) :
    Agrees weaker first second := by
  cases agrees with
  | ok here => exact .ok (implies _ _ here)
  | error fault => exact .error fault

end Agrees

/-! ## Faults that are avoided -/

section

variable {α β : Type} {bad : Fault → Prop}

end

/-! ## The walk and the loop -/

section

variable {σ α γ β : Type}

def collect (act : σ → α → Except Fault (Option γ × σ)) : σ → List α → Except Fault (List γ × σ)
  | s, [] => .ok ([], s)
  | s, a :: rest => do
    let (given, s) ← act s a
    let (others, s) ← collect act s rest
    .ok (given.toList ++ others, s)

/-- Run through `count` positions from `i` on; the body says whether `index`
counts on. -/
def countLoop (body : Nat → Nat → β → Except Fault (Bool × β)) :
    Nat → Nat → Nat → β → Except Fault (Nat × β)
  | 0, _, index, b => .ok (index, b)
  | count + 1, i, index, b => do
    let (counts, b) ← body i index b
    countLoop body count (i + 1) (if counts then index + 1 else index) b

/-- A body that follows one act of the walk, with an invariant about what was
kept and the two states, makes a loop that follows the walk over the items of
its positions. -/
theorem countLoop_agrees {act : σ → α → Except Fault (Option γ × σ)} {item : Nat → α}
    {body : Nat → Nat → β → Except Fault (Bool × β)}
    {inv : Nat → List γ → σ → β → Prop} {limit : Nat}
    (step :
      ∀ i kept s b, i < limit → inv i kept s b →
        Agrees
          (fun given done =>
            done.1 = given.1.isSome ∧ inv (i + 1) (kept ++ given.1.toList) given.2 done.2)
          (act s (item i)) (body i kept.length b))
    {num i : Nat} (within : i + num ≤ limit) {kept : List γ} {s : σ} {b : β}
    (start : inv i kept s b) :
    Agrees
      (fun given done =>
        done.1 = (kept ++ given.1).length ∧ inv (i + num) (kept ++ given.1) given.2 done.2)
      (collect act s ((List.range' i num).map item))
      (countLoop body num i kept.length b) := by
  induction num generalizing i kept s b with
  | zero =>
    refine .ok ⟨?_, ?_⟩
    · rw [List.append_nil]
    · rw [List.append_nil]
      exact start
  | succ num ih =>
    refine (step i kept s b (by omega) start).bind ?_
    rintro ⟨given, s'⟩ ⟨counts, b'⟩ ⟨rfl, related⟩
    have length : (if given.isSome then kept.length + 1 else kept.length) =
          (kept ++ given.toList).length := by
      cases given <;> simp
    dsimp only at related ⊢
    rw [length, ← bind_pure (countLoop body _ _ _ _)]
    refine (ih (by omega) related).bind ?_
    rintro ⟨others, s''⟩ ⟨index, b''⟩ ⟨rfl, finished⟩
    refine .ok ⟨?_, ?_⟩
    · rw [List.append_assoc]
    · rw [List.append_assoc, Nat.add_assoc, Nat.add_comm 1] at finished
      exact finished

end

end Serval.Support
