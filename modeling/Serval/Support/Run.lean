import Serval.Support.Heap

/-!
# Histories

A history is a list of operations, run one after the other from a start state.
Which operation may come next can depend on the state reached.
-/

namespace Serval.Support

variable {σ ο : Type}

def runAll (step : σ → ο → Except Fault σ) : σ → List ο → Except Fault σ
  | s, [] => .ok s
  | s, o :: rest => do
    let s ← step s o
    runAll step s rest

/-- Every operation of the history is allowed in the state it meets. -/
def Admits (step : σ → ο → Except Fault σ) (allowed : σ → ο → Prop) : σ → List ο → Prop
  | _, [] => True
  | s, o :: rest =>
    allowed s o ∧ ∀ s', step s o = .ok s' → Admits step allowed s' rest

/-- Whether a history is allowed can be computed along its run. -/
instance Admits.decidable (step : σ → ο → Except Fault σ) (allowed : σ → ο → Prop)
    [∀ s o, Decidable (allowed s o)] :
    (history : List ο) → (s : σ) → Decidable (Admits step allowed s history)
  | [], _ => .isTrue trivial
  | o :: rest, s =>
    match next : step s o with
    | .ok s' =>
      have := Admits.decidable step allowed rest s'
      decidable_of_iff (allowed s o ∧ Admits step allowed s' rest)
        (and_congr_right fun _ =>
          ⟨fun admitted _ same => by
            rw [next] at same
            exact Except.ok.inj same ▸ admitted,
          fun admitted => admitted s' next⟩)
    | .error _ =>
      decidable_of_iff (allowed s o)
        (iff_self_and.mpr fun _ _ same => by
          rw [next] at same
          cases same)

theorem runAll_append (step : σ → ο → Except Fault σ) (s : σ) (first second : List ο) :
    runAll step s (first ++ second) =
      (runAll step s first).bind fun s' => runAll step s' second := by
  induction first generalizing s with
  | nil => rfl
  | cons o rest ih =>
    simp only [List.cons_append, runAll]
    cases step s o with
    | error fault => rfl
    | ok s' => exact ih s'

variable {step : σ → ο → Except Fault σ} {allowed : σ → ο → Prop} {s : σ} {history : List ο}

theorem admits_append {first second : List ο} (start : Admits step allowed s first)
    (rest : ∀ s', runAll step s first = .ok s' → Admits step allowed s' second) :
    Admits step allowed s (first ++ second) := by
  induction first generalizing s with
  | nil => exact rest s rfl
  | cons o tail ih =>
    refine ⟨start.1, ?_⟩
    intro s' stepped
    apply ih (start.2 s' stepped)
    intro s'' ran
    apply rest
    simp only [runAll, stepped, ok_bind, ran]

theorem Admits.mono {weaker : σ → ο → Prop} (implies : ∀ s o, allowed s o → weaker s o)
    (admitted : Admits step allowed s history) :
    Admits step weaker s history := by
  induction history generalizing s with
  | nil => trivial
  | cons o rest ih =>
    refine ⟨implies s o admitted.1, ?_⟩
    intro s' stepped
    exact ih (admitted.2 s' stepped)

/-- What every allowed operation keeps, every admitted history keeps. -/
theorem runAll_keeps {invariant : σ → Prop}
    (keeps :
      ∀ s o, invariant s → allowed s o →
        ∃ s', step s o = .ok s' ∧ invariant s') (start : invariant s)
    (admitted : Admits step allowed s history) :
    ∃ s', runAll step s history = .ok s' ∧ invariant s' := by
  induction history generalizing s with
  | nil => exact ⟨s, rfl, start⟩
  | cons o rest ih =>
    obtain ⟨s', stepped, kept⟩ := keeps s o start admitted.1
    obtain ⟨final, ran, keptFinal⟩ := ih kept (admitted.2 s' stepped)
    refine ⟨final, ?_, keptFinal⟩
    simp only [runAll, stepped, ok_bind, ran]

/-- The same for histories that may end in a fault: what is left is what every
allowed operation that returns keeps. -/
theorem runAll_invariant {invariant : σ → Prop}
    (keeps :
      ∀ s o s', invariant s → allowed s o → step s o = .ok s' →
        invariant s') {s' : σ} (start : invariant s)
    (admitted : Admits step allowed s history)
    (run : runAll step s history = .ok s') : invariant s' := by
  induction history generalizing s with
  | nil =>
    cases run
    exact start
  | cons o rest ih =>
    obtain ⟨middle, stepped, run⟩ := of_bind run
    have kept := keeps s o middle start admitted.1 stepped
    exact ih kept (admitted.2 middle stepped) run

/-! ## Runs on fixed inputs -/

def leaves {α : Type} (run : Except Fault α) (test : α → Bool) : Bool :=
  match run with
  | .ok result => test result
  | .error _ => false

theorem exists_of_leaves {α : Type} {run : Except Fault α} {test : α → Bool}
    (passes : leaves run test = true) :
    ∃ result, run = .ok result ∧ test result = true := by
  cases run with
  | error fault => cases passes
  | ok result => exact ⟨result, rfl, passes⟩

end Serval.Support
