import MegaVnc.System.RemotePcEffect

/-! # The ids given to new PCs

A new PC gets the id that follows the highest one present. Ids grow along a run
as long as no step removes the PC that has the highest one; a removed highest id
is given out again.
-/

namespace MegaVnc

open Relational Application Transition

variable {environment : Environment} {world : World} {operation : Operation}
  {operations before : List Operation} {old new top : RemotePc}

/-- The PC with the highest id is gone after the operation. -/
def RemovesTop (environment : Environment) (world : World) (operation : Operation) : Prop :=
  ∃ top ∈ world.db.remotePc.rows,
    (∀ row ∈ world.db.remotePc.rows, row.repeaterId ≤ top.repeaterId) ∧
      ∀ row ∈ (step environment world operation).db.remotePc.rows, row.id ≠ top.id

instance : Decidable (RemovesTop environment world operation) :=
  inferInstanceAs (Decidable (∃ top ∈ _, _))

/-- A PC that a step adds to a reachable state has an id above all those
present: the loader never adds one, since the base PC is always there. -/
theorem lt_repeaterId_of_added (reached : Reachable environment world)
    (member : new ∈ (step environment world operation).db.remotePc.rows)
    (added : ∀ row ∈ world.db.remotePc.rows, row.id ≠ new.id) :
    ∀ row ∈ world.db.remotePc.rows, row.repeaterId < new.repeaterId := by
  cases step_effect environment world operation with
  | kept rows nextKey =>
      rw [rows] at member
      exact (added new member rfl).elim
  | changed present change rows nextKey =>
      rw [rows] at member
      rcases Table.mem_replace.mp member with ⟨kept, -⟩ | ⟨rfl, row, stored, sameId⟩
      · exact (added new kept rfl).elim
      · exact (added row stored sameId).elim
  | registered registers accepted named secured rows nextKey =>
      rw [rows] at member
      rcases List.mem_append.mp member with kept | appended
      · exact (added new kept rfl).elim
      · intro row present
        rw [List.mem_singleton.mp appended]
        exact RemotePcApiService.lt_nextRepeaterId present
  | loaded starts missing rows nextKey =>
      obtain ⟨base, present, -, isLowest, -⟩ := reached.exists_basePc
      exact (missing base present isLowest).elim
  | deleted doomed decided deletes rows nextKey =>
      rw [rows] at member
      exact (added new (Table.mem_deleteWhere.mp member).1 rfl).elim

/-- There is always a PC with the highest id. -/
theorem exists_top (member : old ∈ world.db.remotePc.rows) :
    ∃ top ∈ world.db.remotePc.rows,
      ∀ row ∈ world.db.remotePc.rows, row.repeaterId ≤ top.repeaterId := by
  cases found : world.db.findTopByOrderByRepeaterIdDesc with
  | none =>
      have noRows := Database.findTop_eq_none.mp found
      rw [noRows] at member
      cases member
  | some top => exact ⟨top, Database.findTop_eq_some found⟩

/-- The highest id does not fall in a step that keeps its PC. -/
theorem exists_le_repeaterId_step (keeps : ¬ RemovesTop environment world operation)
    (member : old ∈ world.db.remotePc.rows) :
    ∃ row ∈ (step environment world operation).db.remotePc.rows,
      old.repeaterId ≤ row.repeaterId := by
  obtain ⟨top, present, highest⟩ := exists_top member
  rcases mem_step_of_mem environment operation present with
    ⟨row, stored, -, rfl | change⟩ | ⟨-, gone⟩
  · exact ⟨row, stored, highest old member⟩
  · have sameRepeaterId := change.sameIdentity.2.1
    exact ⟨row, stored, sameRepeaterId ▸ highest old member⟩
  · exact (keeps ⟨top, present, highest, gone⟩).elim

/-- In a run that does not remove the highest one, no repeaterId is above all that are
stored. -/
theorem exists_le_repeaterId_run
    (keeps : Along (step environment) (fun world operation =>
      ¬ RemovesTop environment world operation) world operations)
    (member : old ∈ world.db.remotePc.rows) :
    ∃ row ∈ (run (step environment) world operations).db.remotePc.rows,
      old.repeaterId ≤ row.repeaterId := by
  induction operations generalizing world old with
  | nil => exact ⟨old, member, Int.le_refl _⟩
  | cons operation rest ih =>
      obtain ⟨middle, present, below⟩ := exists_le_repeaterId_step keeps.1 member
      obtain ⟨row, stored, above⟩ := ih keeps.2 present
      exact ⟨row, stored, Int.le_trans below above⟩

/-- A new PC's id is above every id present, and above every id that was ever
present in a run that always keeps the PC with the highest one. -/
theorem repeaterId_above_all_earlier (reached : Reachable environment world)
    (member : new ∈ (step environment (run (step environment) world operations)
      operation).db.remotePc.rows)
    (added : ∀ row ∈ (run (step environment) world operations).db.remotePc.rows,
      row.id ≠ new.id) :
    (∀ row ∈ (run (step environment) world operations).db.remotePc.rows,
        row.repeaterId < new.repeaterId) ∧
      (Along (step environment) (fun world operation =>
          ¬ RemovesTop environment world operation) world operations →
        ∀ before, before <+: operations →
          ∀ old ∈ (run (step environment) world before).db.remotePc.rows,
            old.repeaterId < new.repeaterId) := by
  have above := lt_repeaterId_of_added (reached.run operations) member added
  refine ⟨above, ?_⟩
  rintro keeps before ⟨rest, rfl⟩ old present
  rw [along_append] at keeps
  obtain ⟨row, stored, below⟩ := exists_le_repeaterId_run keeps.2 present
  rw [← run_append] at stored
  exact Int.lt_of_le_of_lt below (above row stored)

/-! ### A deleted id given out again -/

/-- Registrations, deletions of PCs and restarts. -/
def Operation.isRegistry : Operation → Bool
  | .registerRemotePcApi _ | .registerRemotePcWeb _ | .deleteRemotePc _ _ | .deleteGroup _
  | .dataLoader _ => true
  | _ => false

/-- The administrator's session. -/
def adminUser : User where
  username := some "admin"
  password := "$2a$10$abcdefghijklmnopqrstuulJRIjgJQDErEv3oUy8Oo/Qx27brYSjC"
  roles := ["ROLE_ADMIN"]

/-- A laboratory with the administrator as its member. -/
def createLab : Operation :=
  .createGroup (some "Lab")

/-- An app registers a PC in the group Lab. -/
def registerInLab (pcName : String) : Operation :=
  .registerRemotePcApi
    { accessPassword := some "1111", remotePcName := some pcName, groupName := some "Lab" }

/-- The PC that is registered. -/
def labPc (repeaterId : Long) (name : String) (id : Long) : RemotePc :=
  .createRemotePc repeaterId name "1111" 2 id

/-- A laboratory with one PC, whose repeaterId is 101. -/
def laboratory : World :=
  run (step .dev) (initial .dev) [createLab, registerInLab "PC-1"]

theorem thirdPc_above_all_earlier :
    (∀ row ∈ (run (step .dev) (initial .dev) [createLab, registerInLab "PC-1",
        registerInLab "PC-2", .deleteRemotePc adminUser 2]).db.remotePc.rows,
        row.repeaterId < 103) ∧
      (Along (step .dev) (fun world operation => ¬ RemovesTop .dev world operation)
          (initial .dev) [createLab, registerInLab "PC-1", registerInLab "PC-2",
            .deleteRemotePc adminUser 2] →
        ∀ before, before <+: [createLab, registerInLab "PC-1", registerInLab "PC-2",
            .deleteRemotePc adminUser 2] →
          ∀ old ∈ (run (step .dev) (initial .dev) before).db.remotePc.rows,
            old.repeaterId < 103) := by
  have member : labPc 103 "PC-3" 4 ∈ (step .dev (run (step .dev) (initial .dev) [createLab,
      registerInLab "PC-1", registerInLab "PC-2", .deleteRemotePc adminUser 2])
      (registerInLab "PC-3")).db.remotePc.rows := by
    decide +kernel
  have added : ∀ row ∈ (run (step .dev) (initial .dev) [createLab, registerInLab "PC-1",
      registerInLab "PC-2", .deleteRemotePc adminUser 2]).db.remotePc.rows,
      row.id ≠ (labPc 103 "PC-3" 4).id := by
    decide +kernel
  exact repeaterId_above_all_earlier (Transition.Reachable.refl _) member added

/-- The id of the deleted PC with the highest one is given to the next PC. -/
theorem repeaterId_reused :
    ¬ ∀ (environment : Environment) (world : World) (operations before : List Operation)
        (operation : Operation) (old new : RemotePc), Reachable environment world →
      operations.all Operation.isRegistry → operation.Registers →
      new ∈ (step environment (run (step environment) world operations)
        operation).db.remotePc.rows →
      (∀ row ∈ (run (step environment) world operations).db.remotePc.rows, row.id ≠ new.id) →
      before <+: operations →
      old ∈ (run (step environment) world before).db.remotePc.rows →
      old.repeaterId ≠ new.repeaterId := by
  intro apart
  refine apart .dev (run (step .dev) (initial .dev) [createLab])
    [registerInLab "PC-1", .deleteRemotePc adminUser 2] [registerInLab "PC-1"]
    (registerInLab "PC-2") (labPc 101 "PC-1" 2) (labPc 101 "PC-2" 3) ?_ rfl trivial ?_ ?_
    ⟨_, rfl⟩ ?_ rfl
  · exact (Transition.Reachable.refl _).run _
  · decide +kernel
  · decide +kernel
  · decide +kernel

end MegaVnc
