import Mathlib.Data.List.Basic
import Mathlib.Data.List.Induction
import Mathlib.Data.Set.Basic
import Mathlib.Order.Basic

/-! # Runs of a deterministic transition system

A system takes one input at a time. A run is the fold of its step over a list
of inputs. A condition on the inputs is imposed at the state each of them meets
(`Transition.Along`), and an invariant kept by every step that meets the
condition holds after the whole run (`Transition.Along.run_invariant`).
-/

namespace Transition

variable {σ ι : Type*} (step : σ → ι → σ)

/-- The state after a list of inputs. -/
def run (state : σ) (inputs : List ι) : σ :=
  inputs.foldl step state

@[simp] theorem run_nil (state : σ) : run step state [] = state := rfl

@[simp] theorem run_cons (state : σ) (input : ι) (rest : List ι) :
    run step state (input :: rest) = run step (step state input) rest := rfl

@[simp] theorem run_append (state : σ) (first second : List ι) :
    run step state (first ++ second) = run step (run step state first) second :=
  List.foldl_append

/-- Every input meets the condition at the state it is applied to. -/
def Along (condition : σ → ι → Prop) : σ → List ι → Prop
  | _, [] => True
  | state, input :: rest => condition state input ∧ Along condition (step state input) rest

instance decidableAlong (condition : σ → ι → Prop)
    [decided : ∀ state input, Decidable (condition state input)] :
    ∀ state inputs, Decidable (Along step condition state inputs)
  | _, [] => .isTrue trivial
  | state, input :: rest =>
      have := decidableAlong condition (step state input) rest
      inferInstanceAs (Decidable (_ ∧ _))

/-- The states reached from `initial`. -/
def Reachable (initial state : σ) : Prop :=
  ∃ inputs, run step initial inputs = state

variable {step} {condition : σ → ι → Prop} {state : σ}

@[simp] theorem along_nil : Along step condition state [] := trivial

@[simp] theorem along_cons {input : ι} {rest : List ι} :
    Along step condition state (input :: rest) ↔
      condition state input ∧ Along step condition (step state input) rest := Iff.rfl

/-- A condition along a run is one along its two parts. -/
theorem along_append {first second : List ι} :
    Along step condition state (first ++ second) ↔
      Along step condition state first ∧
        Along step condition (run step state first) second := by
  induction first generalizing state with
  | nil => simp only [List.nil_append, along_nil, run_nil, true_and]
  | cons input rest ih => simp only [List.cons_append, along_cons, run_cons, ih, and_assoc]

/-- Two conditions hold along a run together or not at all. -/
theorem along_and {other : σ → ι → Prop} {inputs : List ι} :
    Along step (fun state input => condition state input ∧ other state input) state inputs ↔
      Along step condition state inputs ∧ Along step other state inputs := by
  induction inputs generalizing state with
  | nil => simp only [along_nil, and_self]
  | cons input rest ih => simp only [along_cons, ih, and_and_and_comm]

/-- What is true of every input in every state holds along each run. -/
theorem Along.of_forall {inputs : List ι} (always : ∀ state, ∀ input ∈ inputs,
    condition state input) : Along step condition state inputs := by
  induction inputs generalizing state with
  | nil => trivial
  | cons input rest ih =>
      exact ⟨always state input List.mem_cons_self,
        ih fun later member inside => always later member (List.mem_cons_of_mem _ inside)⟩

/-- A condition met along a run gives another one wherever an invariant holds. -/
theorem Along.imp_of_invariant (invariant : σ → Prop) {other : σ → ι → Prop} {inputs : List ι}
    (along : Along step condition state inputs)
    (kept : ∀ state input, condition state input → invariant state → invariant (step state input))
    (implies : ∀ state input, condition state input → invariant state → other state input)
    (start : invariant state) : Along step other state inputs := by
  induction inputs generalizing state with
  | nil => trivial
  | cons input rest ih =>
      exact ⟨implies state input along.1 start, ih along.2 (kept state input along.1 start)⟩

/-- An invariant kept by every step that meets the condition holds after a run
whose steps all meet it. -/
theorem Along.run_invariant (invariant : σ → Prop) {inputs : List ι}
    (along : Along step condition state inputs)
    (kept : ∀ state input, condition state input → invariant state → invariant (step state input))
    (start : invariant state) : invariant (run step state inputs) := by
  induction inputs generalizing state with
  | nil => exact start
  | cons input rest ih => exact ih along.2 (kept state input along.1 start)

/-- What some input of a run establishes and all inputs keep holds after the
run. -/
theorem Along.run_established (property : σ → Prop) (establishes : ι → Prop) {inputs : List ι}
    (along : Along step condition state inputs)
    (established : ∀ state input, condition state input → establishes input →
      property (step state input))
    (kept : ∀ state input, condition state input → property state → property (step state input))
    (some : ∃ input ∈ inputs, establishes input) : property (run step state inputs) := by
  obtain ⟨input, member, marked⟩ := some
  obtain ⟨before, after, rfl⟩ := List.append_of_mem member
  obtain ⟨-, met, later⟩ := along_append.mp along
  rw [run_append, run_cons]
  exact later.run_invariant property kept (established _ input met marked)

/-- Two conditions that agree wherever an invariant holds are met along the same
runs. -/
theorem along_congr (invariant : σ → Prop) {other : σ → ι → Prop} {inputs : List ι}
    (kept : ∀ state, ∀ input ∈ inputs, invariant state → invariant (step state input))
    (agree : ∀ state, ∀ input ∈ inputs, invariant state →
      (condition state input ↔ other state input))
    (start : invariant state) :
    Along step condition state inputs ↔ Along step other state inputs := by
  induction inputs generalizing state with
  | nil => exact Iff.rfl
  | cons input rest ih =>
      have later := ih (fun state next inside => kept state next (List.mem_cons_of_mem _ inside))
        (fun state next inside => agree state next (List.mem_cons_of_mem _ inside))
        (kept state input List.mem_cons_self start)
      exact and_congr (agree state input List.mem_cons_self start) later

/-- Where one step decides whether a property still holds, a run has it in every
state it reaches exactly when all steps are such. The invariant may need a condition
that the inputs meet. -/
theorem Along.property_iff {legal : σ → ι → Prop} (invariant property : σ → Prop)
    {inputs : List ι} (along : Along step legal state inputs)
    (kept : ∀ state input, legal state input → invariant state → invariant (step state input))
    (decides : ∀ state input, invariant state → property state →
      (property (step state input) ↔ condition state input))
    (start : invariant state) (holds : property state) :
    Along step (fun state input => property (step state input)) state inputs ↔
      Along step condition state inputs := by
  induction inputs generalizing state with
  | nil => exact Iff.rfl
  | cons input rest ih =>
      refine (and_congr_left fun later => decides state input start holds).trans
        (and_congr_right fun met => ?_)
      exact ih along.2 (kept state input along.1 start)
        ((decides state input start holds).mpr met)

/-- A property that a step keeps exactly where the condition holds is kept along a run
exactly where the condition holds along it. -/
theorem along_property_iff (invariant property : σ → Prop) {inputs : List ι}
    (kept : ∀ state input, invariant state → invariant (step state input))
    (decides : ∀ state input, invariant state → property state →
      (property (step state input) ↔ condition state input))
    (start : invariant state) (holds : property state) :
    Along step (fun state input => property (step state input)) state inputs ↔
      Along step condition state inputs :=
  (Along.of_forall fun _ _ _ => trivial : Along step (fun _ _ => True) state inputs).property_iff
    invariant property (fun state input _ => kept state input) decides start holds

/-- After one more input that does not spoil, the inputs that spoil are those of before. -/
theorem spoils_append_singleton {spoils : σ → ι → Prop} {repaired : List ι → Prop}
    {inputs : List ι} {last : ι} (harmless : ¬ spoils (run step state inputs) last) :
    (∀ before input after, inputs ++ [last] = before ++ input :: after →
        spoils (run step state before) input → repaired after) ↔
      ∀ before input after, inputs = before ++ input :: after →
        spoils (run step state before) input → repaired (after ++ [last]) := by
  constructor
  · rintro every before input after rfl spoilt
    exact every before input (after ++ [last]) (by rw [List.append_assoc, List.cons_append]) spoilt
  · intro every before input after split spoilt
    rcases List.eq_nil_or_concat' after with rfl | ⟨after, final, rfl⟩
    · obtain ⟨rfl, same⟩ := List.append_inj' split rfl
      cases same
      exact (harmless spoilt).elim
    · rw [← List.cons_append, ← List.append_assoc] at split
      obtain ⟨rfl, same⟩ := List.append_inj' split rfl
      cases same
      exact every before input after rfl spoilt

/-- After some inputs a property holds if another one does, some inputs spoil it, and all
others leave both as they are. After a run the property holds exactly when each input that
spoils it is followed by one that settles it, and when the other one holds at the end, if
any input has settled it. -/
theorem run_iff_settled (property agrees : σ → Prop) (spoils : σ → ι → Prop) (settles : ι → Prop)
    {inputs : List ι}
    (acts : Along step (fun state input =>
      (settles input → (property (step state input) ↔ agrees (step state input))) ∧
        (spoils state input → ¬ property (step state input)) ∧
        (¬ settles input → ¬ spoils state input →
          (property (step state input) ↔ property state) ∧
            (agrees (step state input) ↔ agrees state))) state inputs)
    (start : property state) :
    property (run step state inputs) ↔
      (∀ before input after, inputs = before ++ input :: after →
        spoils (run step state before) input → ∃ later ∈ after, settles later) ∧
      ((∃ input ∈ inputs, settles input) → agrees (run step state inputs)) := by
  induction inputs using List.reverseRecOn with
  | nil =>
      refine iff_of_true start ⟨fun before input after split => ?_, fun ⟨_, absent, _⟩ => ?_⟩
      · cases before <;> cases split
      · cases absent
  | append_singleton inputs last ih =>
      obtain ⟨earlier, ⟨settled, spoiled, kept⟩, -⟩ := along_append.mp acts
      have ih := ih earlier
      rw [run_append, run_cons, run_nil]
      by_cases spoiling : spoils (run step state inputs) last
      · refine iff_of_false (spoiled spoiling) fun ⟨repaired, _⟩ => ?_
        obtain ⟨later, member, -⟩ := repaired inputs last [] rfl spoiling
        cases member
      · -- An input that spoils the property comes before the last one.
        rw [spoils_append_singleton spoiling]
        by_cases settling : settles last
        · refine (settled settling).trans ⟨fun holds => ⟨fun _ _ after _ _ => ?_, fun _ => holds⟩,
            fun ⟨_, holds⟩ => holds ?_⟩
          · exact ⟨last, List.mem_append_right after (List.mem_singleton_self _), settling⟩
          · exact ⟨last, List.mem_append_right _ (List.mem_singleton_self _), settling⟩
        · obtain ⟨sameProperty, sameAgrees⟩ := kept settling spoiling
          have same {within : List ι} : (∃ later ∈ within ++ [last], settles later) ↔
              ∃ later ∈ within, settles later := by
            simp only [List.mem_append, List.mem_singleton, or_and_right, exists_or, exists_eq_left,
              settling, or_false]
          rw [sameProperty, ih, same, sameAgrees]
          simp only [same]

/-- What only grows along a run ends where it began when no step changes it. -/
theorem run_eq_iff_along {α : Type*} [PartialOrder α] (measure : σ → α) {inputs : List ι}
    (grows : Along step (fun state input => measure state ≤ measure (step state input)) state
      inputs) :
    measure (run step state inputs) = measure state ↔
      Along step (fun state input => measure (step state input) = measure state) state inputs := by
  have below {first : σ} {inputs : List ι}
      (grows : Along step (fun state input => measure state ≤ measure (step state input)) first
        inputs) : measure first ≤ measure (run step first inputs) := by
    induction inputs generalizing first with
    | nil => exact le_refl _
    | cons input rest ih => exact le_trans grows.1 (ih grows.2)
  induction inputs generalizing state with
  | nil => exact iff_of_true rfl trivial
  | cons input rest ih =>
      have unchanged := ih grows.2
      constructor
      · intro same
        have first : measure (step state input) = measure state :=
          le_antisymm (le_of_le_of_eq (below grows.2) same) grows.1
        exact ⟨first, unchanged.mp (same.trans first.symm)⟩
      · rintro ⟨first, later⟩
        exact (unchanged.mpr later).trans first

/-- What every step only adds to holds after a run what it held before and what some
step has added. -/
theorem Along.run_collects {α : Type*} (collected : σ → Set α) (added : σ → ι → Set α)
    {inputs : List ι}
    (along : Along step (fun state input => collected (step state input) =
      collected state ∪ added state input) state inputs) :
    collected (run step state inputs) = collected state ∪ { item | ∃ before input after,
      inputs = before ++ input :: after ∧ item ∈ added (run step state before) input } := by
  ext item
  induction inputs generalizing state with
  | nil =>
      refine (or_iff_left ?_).symm
      rintro ⟨before, input, after, split, -⟩
      cases before <;> cases split
  | cons input rest ih =>
      rw [run_cons, ih along.2, along.1, Set.union_assoc]
      refine or_congr_right ?_
      constructor
      · rintro (now | ⟨before, later, after, rfl, inside⟩)
        · exact ⟨[], input, rest, rfl, now⟩
        · exact ⟨input :: before, later, after, rfl, inside⟩
      · rintro ⟨before, found, after, split, inside⟩
        cases before with
        | nil =>
            cases split
            exact Or.inl inside
        | cons first before =>
            cases split
            exact Or.inr ⟨before, found, after, rfl, inside⟩

/-- A property absent before a run and present after it appears at one of its
steps. -/
theorem exists_step_of_run {property : σ → Prop} {inputs : List ι} (absent : ¬ property state)
    (present : property (run step state inputs)) :
    ∃ before input after, inputs = before ++ input :: after ∧
      ¬ property (run step state before) ∧ property (step (run step state before) input) := by
  induction inputs generalizing state with
  | nil => exact (absent present).elim
  | cons input rest ih =>
      by_cases appears : property (step state input)
      · exact ⟨[], input, rest, rfl, absent, appears⟩
      · obtain ⟨before, found, after, rfl, still, appeared⟩ := ih appears present
        exact ⟨input :: before, found, after, rfl, still, appeared⟩

theorem Reachable.refl (initial : σ) : Reachable step initial initial := ⟨[], rfl⟩

theorem Reachable.run {initial : σ} (reached : Reachable step initial state) (inputs : List ι) :
    Reachable step initial (run step state inputs) := by
  obtain ⟨before, rfl⟩ := reached
  exact ⟨before ++ inputs, run_append step initial before inputs⟩

/-- An invariant of the initial state kept by every step holds wherever the
system gets. -/
theorem Reachable.invariant (invariant : σ → Prop) {initial : σ}
    (reached : Reachable step initial state)
    (kept : ∀ state input, invariant state → invariant (step state input))
    (start : invariant initial) : invariant state := by
  obtain ⟨inputs, rfl⟩ := reached
  have along : Along step (fun _ _ => True) initial inputs := .of_forall fun _ _ _ => trivial
  exact along.run_invariant invariant (fun state input _ => kept state input) start

end Transition
