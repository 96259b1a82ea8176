import Mathlib.Data.List.Perm.Subperm
import MegaVnc.Foundation.Run

/-! # Operations that read a row and write it later

An operation reads a row, and later writes the whole row it computed from its
copy, or nothing. Other operations can read and write in between. In every
interleaving the row is what some of the operations give one after another, in
the order of their writes and with the last writer at the end; the others are
lost. None is lost when no operation writes over a row that differs from its copy.
-/

namespace ReadModifyWrite

open Transition

variable {Row Op : Type*} (written : Op → Row → Option Row)

/-- An operation that runs alone. -/
def perform (row : Row) (op : Op) : Row :=
  (written op row).getD row

/-- Operations that run one after another. -/
def serial (row : Row) (ops : List Op) : Row :=
  ops.foldl (perform written) row

/-- The row, and the operations that have read it, with their copies. -/
structure State (Row Op : Type*) where
  current : Row
  pending : List (Op × Row)

/-- An operation reads the row, or the operation at a position of those in flight writes. -/
inductive Action (Op : Type*) where
  | read (op : Op)
  | write (position : Nat)

/-- The operations that the actions start. -/
def reads (actions : List (Action Op)) : List Op :=
  actions.filterMap fun
    | .read op => some op
    | .write _ => none

/-- A read copies the row; a write stores what the operation makes of its copy, whatever the
row is by then. -/
def step (state : State Row Op) : Action Op → State Row Op
  | .read op => { state with pending := state.pending ++ [(op, state.current)] }
  | .write position =>
      match state.pending[position]? with
      | none => state
      | some (op, copy) =>
          { current := (written op copy).getD state.current
            pending := state.pending.eraseIdx position }

/-- Nothing has been read yet. -/
def start (row : Row) : State Row Op where
  current := row
  pending := []

/-- The operations that write a row, in the order of their writes. -/
def writers (state : State Row Op) : List (Action Op) → List Op
  | [] => []
  | action :: rest =>
      let later := writers (step written state action) rest
      match action with
      | .read _ => later
      | .write position =>
          match state.pending[position]? with
          | none => later
          | some (op, copy) => if (written op copy).isSome then op :: later else later

/-- What is written replaces the row that was read. -/
def Unchanged (state : State Row Op) (action : Action Op) : Prop :=
  ∀ position op copy row, action = .write position →
    state.pending[position]? = some (op, copy) → written op copy = some row →
    copy = state.current

/-- The row and all copies are the work of some of the operations that have written, in
the order of their writes. The last writer is the last one whose work the row is. -/
structure Traced (row : Row) (ops : List Op) (state : State Row Op) (wrote : List Op) :
    Prop where
  started : (wrote ++ state.pending.map Prod.fst).Subperm ops
  current : ∃ chain, chain.Sublist wrote ∧ chain.getLast? = wrote.getLast? ∧
    state.current = serial written row chain
  pending : ∀ entry ∈ state.pending,
    ∃ chain, chain.Sublist wrote ∧ entry.2 = serial written row chain

/-- The row is the work of all operations but those that still have to write,
in some order. -/
def Ordered (row : Row) (ops : List Op) (state : State Row Op) : Prop :=
  ∃ order, state.current = serial written row order ∧
    (order ++ (state.pending.filter fun entry => (written entry.1 entry.2).isSome).map
      Prod.fst).Perm ops

variable {written} {row copy new : Row} {op : Op} {ops : List Op} {state : State Row Op}
  {actions : List (Action Op)} {position : Nat}

theorem serial_concat : serial written row (ops ++ [op]) =
    perform written (serial written row ops) op := by
  rw [serial, List.foldl_append]
  rfl

theorem perform_of_written (writes : written op row = some new) :
    perform written row op = new := by
  rw [perform, writes, Option.getD_some]

theorem perform_of_silent (silent : written op row = none) : perform written row op = row := by
  rw [perform, silent, Option.getD_none]

theorem step_write_of_none (missing : state.pending[position]? = none) :
    step written state (.write position) = state := by
  simp only [step, missing]

/-- A write stores what is made of the copy, and is in flight no longer. -/
theorem step_write_of_some (found : state.pending[position]? = some (op, copy)) :
    step written state (.write position) =
      { current := (written op copy).getD state.current
        pending := state.pending.eraseIdx position } := by
  simp only [step, found]

/-- The operation that writes is one of those in flight. -/
theorem perm_pending {pending : List (Op × Row)} {entry : Op × Row}
    (found : pending[position]? = some entry) :
    (entry :: pending.eraseIdx position).Perm pending := by
  obtain ⟨inside, rfl⟩ := List.getElem?_eq_some_iff.mp found
  exact List.getElem_cons_eraseIdx_perm inside

/-! ### Every interleaving -/

/-- Before the first read there is nothing to trace. -/
theorem traced_start (written : Op → Row → Option Row) (row : Row) :
    Traced written row [] (start row) [] where
  started := .refl _
  current := ⟨[], .refl _, rfl, rfl⟩
  pending _ member := nomatch member

/-- A read starts an operation, which has the row of that moment. -/
theorem traced_read {wrote : List Op} (traced : Traced written row ops state wrote) (op : Op) :
    Traced written row (ops ++ [op]) (step written state (.read op)) wrote where
  started := by
    change (wrote ++ (state.pending ++ [(op, state.current)]).map Prod.fst).Subperm _
    rw [List.map_append, ← List.append_assoc]
    exact (List.subperm_append_right _).mpr traced.started
  current := traced.current
  pending entry member := by
    rcases List.mem_append.mp member with old | new
    · exact traced.pending entry old
    · obtain ⟨chain, among, -, same⟩ := traced.current
      rw [List.mem_singleton.mp new]
      exact ⟨chain, among, same⟩

/-- An operation that writes nothing leaves the work of the others. -/
theorem traced_silent {wrote : List Op} (traced : Traced written row ops state wrote)
    (found : state.pending[position]? = some (op, copy)) (silent : written op copy = none) :
    Traced written row ops (step written state (.write position)) wrote := by
  rw [step_write_of_some found, silent, Option.getD_none]
  have fewer : (state.pending.eraseIdx position).Sublist state.pending :=
    List.eraseIdx_sublist _ _
  refine ⟨?_, traced.current, fun other present => traced.pending other (fewer.subset present)⟩
  exact ((fewer.map Prod.fst).append_left wrote).subperm.trans traced.started

/-- The row is then the work of the writer and of those whose work its copy was. -/
theorem traced_write {wrote : List Op} (traced : Traced written row ops state wrote)
    (found : state.pending[position]? = some (op, copy)) (writes : written op copy = some new) :
    Traced written row ops (step written state (.write position)) (wrote ++ [op]) := by
  obtain ⟨chain, inside, copied⟩ := traced.pending _ (List.mem_of_getElem? found)
  rw [step_write_of_some found, writes, Option.getD_some]
  refine ⟨?_, ⟨chain ++ [op], inside.append (.refl _), ?_, ?_⟩, fun other present => ?_⟩
  · have rest : (op :: (state.pending.eraseIdx position).map Prod.fst).Perm
        (state.pending.map Prod.fst) := (perm_pending found).map Prod.fst
    rw [List.append_assoc]
    exact (rest.append_left wrote).subperm.trans traced.started
  · rw [List.getLast?_concat, List.getLast?_concat]
  · have computed : written op (serial written row chain) = some new := copied ▸ writes
    rw [serial_concat]
    exact (perform_of_written computed).symm
  · obtain ⟨earlier, among, same⟩ :=
      traced.pending other ((List.eraseIdx_sublist _ _).subset present)
    exact ⟨earlier, among.trans (List.sublist_append_left _ _), same⟩

/-- In a run every operation that has been read is in flight or has finished, and the row is
what a chain of the writers leaves. -/
theorem traced_run (actions : List (Action Op)) {wrote : List Op}
    (traced : Traced written row ops state wrote) :
    Traced written row (ops ++ reads actions) (run (step written) state actions)
      (wrote ++ writers written state actions) := by
  induction actions generalizing ops state wrote with
  | nil =>
      rw [reads, List.filterMap_nil, List.append_nil, writers, List.append_nil]
      exact traced
  | cons action rest ih =>
      cases action with
      | read op =>
          have appended := ih (traced_read traced op)
          rwa [List.append_assoc] at appended
      | write position =>
          cases found : state.pending[position]? with
          | none =>
              have unmoved : step written state (.write position) = state :=
                step_write_of_none found
              simp only [writers, found]
              exact ih (unmoved.symm ▸ traced)
          | some entry =>
              obtain ⟨op, copy⟩ := entry
              simp only [writers, found]
              cases writes : written op copy with
              | none => exact ih (traced_silent traced found writes)
              | some new =>
                  have last := ih (traced_write traced found writes)
                  rwa [List.append_assoc] at last

/-- When all operations have finished, the row is what some of them give one after
another: some of the writers, in the order of their writes, the last one at the end. -/
theorem exists_serial (finished : (run (step written) (start row) actions).pending = []) :
    (writers written (start row) actions).Subperm (reads actions) ∧
    ∃ chain, chain.Sublist (writers written (start row) actions) ∧
      chain.getLast? = (writers written (start row) actions).getLast? ∧
      (run (step written) (start row) actions).current = serial written row chain := by
  have traced := traced_run actions (traced_start written row)
  have all := traced.started
  rw [finished, List.map_nil, List.append_nil] at all
  exact ⟨all, traced.current⟩

/-! ### Interleavings without a lost operation -/

theorem ordered_start : Ordered written row [] (start row) :=
  ⟨[], rfl, .refl _⟩

/-- A read joins the operations whose copy is the row. -/
theorem ordered_read (ordered : Ordered written row ops state) :
    Ordered written row (ops ++ [op]) (step written state (.read op)) := by
  obtain ⟨order, same, all⟩ := ordered
  cases writes : written op state.current with
  | none =>
      -- An operation that will write nothing is done as soon as it has read.
      refine ⟨order ++ [op], ?_, ?_⟩
      · rw [serial_concat, ← same, perform_of_silent writes]
        rfl
      · change (order ++ [op] ++ ((state.pending ++ [(op, state.current)]).filter _).map
          Prod.fst).Perm _
        rw [List.filter_append, List.filter_cons_of_neg (by simp [writes]), List.filter_nil,
          List.append_nil, List.append_assoc]
        exact (List.perm_append_comm.append_left order).trans
          ((List.append_assoc _ _ _).symm ▸ all.append_right [op])
  | some new =>
      refine ⟨order, same, ?_⟩
      change (order ++ ((state.pending ++ [(op, state.current)]).filter _).map Prod.fst).Perm _
      rw [List.filter_append, List.filter_cons_of_pos (by simp [writes]), List.filter_nil,
        List.map_append, ← List.append_assoc]
      exact all.append_right [op]

/-- A write that meets the row as it was read comes next in the order. -/
theorem ordered_write (ordered : Ordered written row ops state)
    (unchanged : Unchanged written state (.write position)) :
    Ordered written row ops (step written state (.write position)) := by
  obtain ⟨order, same, all⟩ := ordered
  cases found : state.pending[position]? with
  | none =>
      rw [step_write_of_none found]
      exact ⟨order, same, all⟩
  | some entry =>
      obtain ⟨op, copy⟩ := entry
      rw [step_write_of_some found]
      have waiting := (perm_pending found).filter fun entry => (written entry.1 entry.2).isSome
      cases writes : written op copy with
      | none =>
          rw [List.filter_cons_of_neg (by simp [writes])] at waiting
          exact ⟨order, same, ((waiting.map Prod.fst).append_left order).trans all⟩
      | some new =>
          rw [List.filter_cons_of_pos (by simp [writes])] at waiting
          have fresh := unchanged position op copy new rfl found writes
          refine ⟨order ++ [op], ?_, ?_⟩
          · rw [serial_concat, ← same, ← fresh]
            exact (perform_of_written writes).symm
          · rw [List.append_assoc]
            exact ((waiting.map Prod.fst).append_left order).trans all

/-- As long as each write meets the row as it was read, the operations run in one order. -/
theorem ordered_run (unchanged : Along (step written) (Unchanged written) state actions)
    (ordered : Ordered written row ops state) :
    Ordered written row (ops ++ reads actions) (run (step written) state actions) := by
  induction actions generalizing ops state with
  | nil =>
      rw [reads, List.filterMap_nil, List.append_nil]
      exact ordered
  | cons action rest ih =>
      obtain ⟨now, later⟩ := unchanged
      cases action with
      | read op =>
          have appended := ih later (ordered_read ordered)
          rwa [List.append_assoc] at appended
      | write position => exact ih later (ordered_write ordered now)

/-- When no operation writes over a row that differs from its copy, the row is
what all operations give one after another in some order. -/
theorem exists_order (unchanged : Along (step written) (Unchanged written) (start row) actions)
    (finished : (run (step written) (start row) actions).pending = []) :
    ∃ order, order.Perm (reads actions) ∧
      (run (step written) (start row) actions).current = serial written row order := by
  obtain ⟨order, same, all⟩ := ordered_run unchanged ordered_start
  rw [finished, List.filter_nil, List.map_nil, List.append_nil, List.nil_append] at all
  exact ⟨order, all, same⟩

end ReadModifyWrite
