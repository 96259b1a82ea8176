import MegaVnc.Foundation.Run

/-! # Two runs an observer compares

Two runs of a system are aligned when they take the same inputs in the same
order, apart from inputs that one of them takes alone. An observer receives the
same in both if what one run takes alone shows nothing and what both take shows
the same, as long as the two states stay similar (`TwoRuns.Unwinding`).
-/

namespace TwoRuns

open Transition

/-- A deterministic system, and what an observer receives at each step. -/
structure System (σ ι ο : Type*) where
  step : σ → ι → σ
  observe : σ → ι → List ο

variable {σ ι ο : Type*}

/-- What the observer receives in a run. -/
def System.observed (system : System σ ι ο) : σ → List ι → List ο
  | _, [] => []
  | state, input :: rest =>
      system.observe state input ++ system.observed (system.step state input) rest

/-- Two runs that differ only in inputs that one of them takes alone. -/
inductive Aligned (system : System σ ι ο) (alone : σ → ι → Prop) (shared : σ → σ → ι → Prop) :
    σ → σ → List ι → List ι → Prop where
  | nil {first second : σ} : Aligned system alone shared first second [] []
  | first {first second : σ} {input : ι} {inputs others : List ι} (apart : alone first input)
      (rest : Aligned system alone shared (system.step first input) second inputs others) :
      Aligned system alone shared first second (input :: inputs) others
  | second {first second : σ} {input : ι} {inputs others : List ι} (apart : alone second input)
      (rest : Aligned system alone shared first (system.step second input) inputs others) :
      Aligned system alone shared first second inputs (input :: others)
  | both {first second : σ} {input : ι} {inputs others : List ι} (same : shared first second input)
      (rest : Aligned system alone shared (system.step first input) (system.step second input)
        inputs others) :
      Aligned system alone shared first second (input :: inputs) (input :: others)

/-- What the alignment of two runs has to do with an observer. -/
structure Unwinding (system : System σ ι ο) (alone : σ → ι → Prop) (shared : σ → σ → ι → Prop)
    (similar : σ → σ → Prop) : Prop where
  symm : ∀ first second, similar first second → similar second first
  hidden : ∀ first second input, similar first second → alone first input →
    system.observe first input = [] ∧ similar (system.step first input) second
  matched : ∀ first second input, similar first second → shared first second input →
    system.observe first input = system.observe second input ∧
      similar (system.step first input) (system.step second input)

variable {system : System σ ι ο} {alone : σ → ι → Prop} {shared : σ → σ → ι → Prop}
  {similar : σ → σ → Prop} {first second : σ} {inputs others : List ι}

/-- The observer cannot tell aligned runs apart. -/
theorem Unwinding.observed_eq (unwinding : Unwinding system alone shared similar)
    (aligned : Aligned system alone shared first second inputs others)
    (start : similar first second) :
    system.observed first inputs = system.observed second others := by
  induction aligned with
  | nil => rfl
  | first apart rest ih =>
      obtain ⟨silent, still⟩ := unwinding.hidden _ _ _ start apart
      rw [System.observed, silent, List.nil_append, ih still]
  | second apart rest ih =>
      obtain ⟨silent, still⟩ := unwinding.hidden _ _ _ (unwinding.symm _ _ start) apart
      rw [System.observed, silent, List.nil_append, ih (unwinding.symm _ _ still)]
  | both same rest ih =>
      obtain ⟨alike, still⟩ := unwinding.matched _ _ _ start same
      rw [System.observed, System.observed, alike, ih still]

/-- A condition along the first run is met where the two runs meet. -/
theorem Aligned.with_along {condition : σ → ι → Prop}
    (aligned : Aligned system alone shared first second inputs others)
    (along : Along system.step condition first inputs) :
    Aligned system alone (fun first second input =>
      shared first second input ∧ condition first input) first second inputs others := by
  induction aligned with
  | nil => exact .nil
  | first apart rest ih => exact .first apart (ih along.2)
  | second apart rest ih => exact .second apart (ih along)
  | both same rest ih => exact .both ⟨same, along.1⟩ (ih along.2)

end TwoRuns
