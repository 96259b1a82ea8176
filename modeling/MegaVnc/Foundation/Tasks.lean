import MegaVnc.Foundation.Run

/-! # Tasks that take several steps

Tasks share a state. A task is launched by what it first reads, and then
advances one step at a time, until it ends; between two of its steps the other
tasks advance, and operations that take a single step change the state. A
property of the state, and of the state together with each waiting task, holds
throughout when launching, advancing and the operations keep it
(`Tasks.Sound.step`).
-/

namespace Tasks

open Transition

/-- What each kind of step does: a launch leaves a task unless it ends at once,
and so does an advance. -/
structure System (σ τ ι ω : Type*) where
  launch : σ → ι → Option τ
  advance : σ → τ → σ × Option τ
  operate : σ → ω → σ

/-- What the tasks share, and the tasks in flight. -/
structure State (σ τ : Type*) where
  shared : σ
  tasks : List τ

/-- A request starts a task, a task takes its next step, or an operation is done at once. -/
inductive Action (ι ω : Type*) where
  | launch (input : ι)
  | advance (position : Nat)
  | operate (operation : ω)
deriving DecidableEq

variable {σ τ ι ω : Type*}

/-- No task is in flight yet. -/
def start (shared : σ) : State σ τ where
  shared := shared
  tasks := []

/-- An action on a task that is not there does nothing. -/
def System.step (system : System σ τ ι ω) (state : State σ τ) : Action ι ω → State σ τ
  | .launch input =>
      { state with tasks := state.tasks ++ (system.launch state.shared input).toList }
  | .advance position =>
      match state.tasks[position]? with
      | none => state
      | some task =>
          { shared := (system.advance state.shared task).1
            tasks := state.tasks.eraseIdx position ++
              (system.advance state.shared task).2.toList }
  | .operate operation => { state with shared := system.operate state.shared operation }

/-- The shared state is valid, and each waiting task holds in it. -/
structure Sound (valid : σ → Prop) (holds : σ → τ → Prop) (state : State σ τ) : Prop where
  valid : valid state.shared
  holds : ∀ task ∈ state.tasks, holds state.shared task

variable {system : System σ τ ι ω} {valid : σ → Prop} {holds : σ → τ → Prop}
  {state : State σ τ} {action : Action ι ω}

theorem sound_start {shared : σ} (initial : valid shared) :
    Sound valid holds (start shared) where
  valid := initial
  holds _ member := absurd member List.not_mem_nil

theorem mem_of_mem_eraseIdx {tasks : List τ} {position : Nat} {task : τ}
    (member : task ∈ tasks.eraseIdx position) : task ∈ tasks :=
  (List.eraseIdx_sublist tasks position).subset member

/-- What is true of the shared state and of each task is kept when a launch makes it true of
the new task, and a step or an operation keeps it for all tasks that stay. -/
theorem Sound.step (sound : Sound valid holds state)
    (launched : ∀ input task, action = .launch input →
      system.launch state.shared input = some task → holds state.shared task)
    (advanced : ∀ position task, action = .advance position →
      state.tasks[position]? = some task →
      valid (system.advance state.shared task).1 ∧
        (∀ next ∈ (system.advance state.shared task).2,
          holds (system.advance state.shared task).1 next) ∧
        ∀ other ∈ state.tasks.eraseIdx position, holds (system.advance state.shared task).1 other)
    (operated : ∀ operation, action = .operate operation →
      valid (system.operate state.shared operation) ∧
        ∀ task ∈ state.tasks, holds (system.operate state.shared operation) task) :
    Sound valid holds (system.step state action) := by
  cases action with
  | launch input =>
      refine ⟨sound.valid, fun task member => ?_⟩
      rcases List.mem_append.mp member with waiting | new
      · exact sound.holds task waiting
      · exact launched input task rfl (Option.mem_toList.mp new)
  | advance position =>
      cases found : state.tasks[position]? with
      | none => rwa [System.step, found]
      | some task =>
          obtain ⟨valid, next, others⟩ := advanced position task rfl found
          rw [System.step, found]
          refine ⟨valid, fun other member => ?_⟩
          rcases List.mem_append.mp member with waiting | new
          · exact others other waiting
          · exact next other (Option.mem_toList.mp new)
  | operate operation => exact ⟨(operated operation rfl).1, (operated operation rfl).2⟩

end Tasks
