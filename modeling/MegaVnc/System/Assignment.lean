import MegaVnc.System.RemotePcEffect

/-! # When a PC becomes assigned

The assignment of a PC is a side effect of the repeater's SERVER_CONNECT event.
It needs no call of a client before, and no client call makes it.
-/

namespace MegaVnc

open Relational Application Transition
open MessageService (Signals afterEvent)

/-- The operation processes a SERVER_CONNECT event of the PC with the id. -/
def Operation.ServerConnects (operation : Operation) (repeaterId : Long) : Prop :=
  ∃ now message, operation = .processMessage now message ∧ Signals message 2 repeaterId

variable {environment : Environment} {world : World} {operation : Operation}
  {operations : List Operation} {old new remotePc : RemotePc}

/-- An unassigned PC that changes becomes assigned only by the connection of its server. -/
theorem RemotePc.Change.assignedAt (change : old.Change world.db operation new)
    (unassigned : old.assignedAt = none) :
    new.assignedAt ≠ none ↔ operation.ServerConnects old.repeaterId := by
  cases change with
  | connected inGroup found free given keeps answered =>
      rw [RemotePcApiService.connected_assignedAt]
      constructor
      · intro assigned
        exact (assigned unassigned).elim
      · rintro ⟨now, message, other, -⟩
        cases other
  | released found =>
      constructor
      · intro assigned
        exact (assigned rfl).elim
      · rintro ⟨now, message, other, -⟩
        cases other
  | @signalled now message evNum signals =>
      simp only [afterEvent, unassigned, true_and]
      constructor
      · intro assigned
        by_cases number : evNum = 2
        · subst number
          exact ⟨now, message, rfl, signals⟩
        · rw [if_neg number] at assigned
          exact (assigned rfl).elim
      · rintro ⟨_, _, same, connects⟩
        cases same
        have number : evNum = 2 := by
          obtain ⟨eventMessage, parsed, rfl, -⟩ := signals
          obtain ⟨again, parsedAgain, number, -⟩ := connects
          cases parsed.symm.trans parsedAgain
          exact number
        rw [if_pos number]
        exact Option.some_ne_none now

/-- A step after which a PC is assigned that was not assigned before processes a
SERVER_CONNECT event of that PC. -/
theorem serverConnects_of_assigned
    (unassigned : ∀ old ∈ world.db.remotePc.rows, old.id = new.id → old.assignedAt = none)
    (member : new ∈ (step environment world operation).db.remotePc.rows)
    (assigned : new.assignedAt ≠ none) :
    (∃ old ∈ world.db.remotePc.rows, old.id = new.id) ∧
      operation.ServerConnects new.repeaterId := by
  rcases mem_of_mem_step member with
    ⟨old, present, sameId, rfl | change⟩ | ⟨repeaterId, name, accessPassword, group, id, -, rfl⟩
  · exact (assigned (unassigned new present rfl)).elim
  · have connects := (change.assignedAt (unassigned old present sameId)).mp assigned
    rw [change.sameIdentity.2.1] at connects
    exact ⟨⟨old, present, sameId⟩, connects⟩
  · exact (assigned rfl).elim

/-- The assignment of a PC that was created or released before a run is made by
a SERVER_CONNECT event of the run, whatever calls the clients make. -/
theorem assigned_only_by_serverConnect
    (unassigned : ∀ old ∈ world.db.remotePc.rows, old.id = remotePc.id → old.assignedAt = none)
    (member : remotePc ∈ (run (step environment) world operations).db.remotePc.rows)
    (assigned : remotePc.assignedAt ≠ none) :
    ∃ before operation after, operations = before ++ operation :: after ∧
      operation.ServerConnects remotePc.repeaterId ∧
      (∃ old ∈ (run (step environment) world before).db.remotePc.rows, old.id = remotePc.id) ∧
      ∀ old ∈ (run (step environment) world before).db.remotePc.rows, old.id = remotePc.id →
        old.assignedAt = none := by
  let Assigned (world : World) : Prop :=
    ∃ row ∈ world.db.remotePc.rows, row.id = remotePc.id ∧ row.assignedAt ≠ none
  have absent : ¬ Assigned world := by
    rintro ⟨row, present, sameId, set⟩
    exact set (unassigned row present sameId)
  have appears : Assigned (run (step environment) world operations) :=
    ⟨remotePc, member, rfl, assigned⟩
  obtain ⟨before, operation, after, rfl, still, row, present, sameId, set⟩ :=
    exists_step_of_run absent appears
  have earlier : ∀ old ∈ (run (step environment) world before).db.remotePc.rows,
      old.id = remotePc.id → old.assignedAt = none := by
    intro old stored same
    by_contra unset
    exact still ⟨old, stored, same, unset⟩
  have unassignedRow : ∀ old ∈ (run (step environment) world before).db.remotePc.rows,
      old.id = row.id → old.assignedAt = none := by
    rw [sameId]
    exact earlier
  obtain ⟨⟨old, stored, same⟩, connects⟩ := serverConnects_of_assigned unassignedRow present set
  have finalMember : remotePc ∈ (run (step environment)
      (step environment (run (step environment) world before) operation)
      after).db.remotePc.rows := by
    rw [run_append, run_cons] at member
    exact member
  have identity := sameIdentity_of_run present finalMember sameId
  rw [identity.2.1] at connects
  exact ⟨before, operation, after, rfl, connects, ⟨old, stored, same.trans sameId⟩, earlier⟩

/-- The base PC after the repeater reported its server at the start of 2024. -/
def connectedBasePc : RemotePc where
  id := 1
  repeaterId := 100
  name := "BASE"
  assignedAt := some 1704067200000
  status := .standby
  accessPassword := "1234"
  reconnectId := some ""
  group := 1

theorem connectedBasePc_mem :
    connectedBasePc ∈ (run (step .dev) (initial .dev) [baseServerConnect]).db.remotePc.rows := by
  decide +kernel

theorem initial_unassigned : ∀ old ∈ (initial .dev).db.remotePc.rows,
    old.id = connectedBasePc.id → old.assignedAt = none := by
  decide +kernel

theorem basePc_assigned_only_by_serverConnect :
    ∃ before operation after, [baseServerConnect] = before ++ operation :: after ∧
      operation.ServerConnects 100 ∧
      (∃ old ∈ (run (step .dev) (initial .dev) before).db.remotePc.rows, old.id = 1) ∧
      ∀ old ∈ (run (step .dev) (initial .dev) before).db.remotePc.rows, old.id = 1 →
        old.assignedAt = none :=
  assigned_only_by_serverConnect initial_unassigned connectedBasePc_mem (by decide)

/-- No call of a client has to come before: the base PC is assigned by the first
event after the first start. -/
theorem assigned_without_connect :
    ¬ ∀ (environment : Environment) (world : World) (operations : List Operation)
        (remotePc : RemotePc), Reachable environment world →
      operations.all Operation.isPcLifecycle →
      (∀ old ∈ world.db.remotePc.rows, old.id = remotePc.id → old.assignedAt = none) →
      remotePc ∈ (run (step environment) world operations).db.remotePc.rows →
      remotePc.assignedAt ≠ none →
      ∃ before remotePcDto after,
        operations = before ++ .connectSettingRepeater remotePcDto :: after ∧
        (perform environment (run (step environment) world before)
          (.connectSettingRepeater remotePcDto)).1 = .ok (.repeaterId remotePc.repeaterId) := by
  intro connected
  obtain ⟨before, remotePcDto, after, split, -⟩ :=
    connected .dev (initial .dev) [baseServerConnect] connectedBasePc
      (Transition.Reachable.refl _) (by decide) initial_unassigned connectedBasePc_mem (by decide)
  have inside : Operation.connectSettingRepeater remotePcDto ∈ [baseServerConnect] := by
    rw [split]
    exact List.mem_append_right _ List.mem_cons_self
  cases List.mem_singleton.mp inside

end MegaVnc
