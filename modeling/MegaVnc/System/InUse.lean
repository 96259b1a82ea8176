import MegaVnc.System.DomainIntegrity
import MegaVnc.System.RepeaterId

/-! # PCs in use

The deletion of a single PC is refused while its session is running. The
deletion of a group takes its PCs along without looking at them.
-/

namespace MegaVnc

open Relational Fallible Application Transition

namespace Operation

/-- Every PC in use is still there after the operation. -/
def KeepsInUse (environment : Environment) (world : World) (operation : Operation) : Prop :=
  ∀ remotePc ∈ world.db.remotePc.rows, remotePc.status = .active →
    ∃ after ∈ (step environment world operation).db.remotePc.rows, remotePc.SameIdentity after

/-- No group with a PC in use is deleted; the base group never is. -/
def SparesInUse (world : World) (operation : Operation) : Prop :=
  ∀ groupId, operation = .deleteGroup groupId → groupId ≠ 1 →
    ∀ remotePc ∈ world.db.remotePc.rows, remotePc.group = groupId → remotePc.status ≠ .active

end Operation

variable {environment : Environment} {world : World} {operation : Operation}
  {remotePc : RemotePc} {groupId : Long}

/-- A PC in use is not deleted alone. -/
theorem deleteRemotePc_keeps {user : User} {id : Long} (present : remotePc ∈ world.db.remotePc.rows)
    (active : remotePc.status = .active) :
    ∃ after ∈ (step environment world (.deleteRemotePc user id)).db.remotePc.rows,
      after.id = remotePc.id := by
  refine transact_holds (fun db => ∃ after ∈ db.remotePc.rows, after.id = remotePc.id)
    ⟨remotePc, present, rfl⟩ fun reply db ok => ?_
  obtain ⟨groupName, deleted, rfl⟩ := (answered_eq_ok .deleted).mp ok
  obtain ⟨⟨found, _, stored, idle, -⟩, rfl⟩ := RemotePcService.deletePc_eq_ok deleted
  obtain ⟨foundIn, named⟩ := Table.findById_eq_some.mp stored
  have other : remotePc.id ≠ id := by
    intro same
    have equal : remotePc = found := Table.eq_of_key_eq present foundIn (same.trans named.symm)
    exact idle (equal ▸ active)
  exact ⟨remotePc, Table.mem_deleteWhere.mpr ⟨present, other⟩, rfl⟩

/-- The deletion of a stored group takes all its PCs along. -/
theorem deleteGroup_removes {group : Group} (stored : group ∈ world.db.segment.rows)
    (named : group.id = groupId) (other : groupId ≠ 1) (inGroup : remotePc.group = groupId) :
    ∀ row ∈ (step environment world (.deleteGroup groupId)).db.remotePc.rows,
      row.group ≠ remotePc.group := by
  have found : world.db.segment.findById groupId = some group :=
    Table.findById_eq_some.mpr ⟨stored, named⟩
  subst named
  intro row kept
  simp only [step, perform, AdminGroupService.deleteGroup, found, orElseThrow, throwIf, other,
    ↓reduceIte, pure, Except.pure, bind, Except.bind, transact] at kept
  rw [inGroup]
  exact (Table.mem_deleteWhere.mp kept).2

/-- An operation keeps the PCs in use if and only if it deletes no group that has
one. -/
theorem keepsInUse_iff (intact : Intact world.db) :
    operation.KeepsInUse environment world ↔ operation.SparesInUse world := by
  constructor
  · rintro keeps groupId rfl other remotePc present inGroup active
    obtain ⟨after, kept, same⟩ := keeps remotePc present active
    obtain ⟨group, stored, named⟩ := intact.referring.pcGroups remotePc present
    exact deleteGroup_removes stored (named.trans inGroup) other inGroup after kept
      same.2.2.2.2.symm
  · intro spares remotePc present active
    rcases mem_step_of_mem environment operation present with
      ⟨after, kept, -, rfl | change⟩ | ⟨deletes, gone⟩
    · exact ⟨after, kept, rfl, rfl, rfl, rfl, rfl⟩
    · exact ⟨after, kept, change.sameIdentity⟩
    · cases operation with
      | deleteRemotePc user id =>
          obtain ⟨after, kept, same⟩ := @deleteRemotePc_keeps environment _ _ user id present active
          exact (gone after kept same).elim
      | deleteGroup groupId =>
          exact (spares groupId rfl deletes.1 remotePc present deletes.2 active).elim
      | _ => exact deletes.elim

/-- In a run from the first start, every operation keeps the PCs in use if and
only if none deletes a group that has one. -/
theorem run_keepsInUse_iff (environment : Environment) (operations : List Operation) :
    Along (step environment) (fun world operation => operation.KeepsInUse environment world)
        (initial environment) operations ↔
      Along (step environment) (fun world operation => operation.SparesInUse world)
        (initial environment) operations :=
  along_congr (Application.Reachable environment)
    (fun _ operation _ reached => reached.run [operation])
    (fun _ _ _ reached => keepsInUse_iff reached.intact)
    (Transition.Reachable.refl _)

/-- SERVER_CONNECT and VIEWER_SERVER_SESSION_START of the PC in the laboratory. -/
def labSession : List Operation :=
  [.processMessage 1704067200000
      "EvMsgVer:1,EvNum:2,Time:1704067200,Pid:4321,TblInd:0,Code:101,Mode:2,Ip:192.168.0.11",
    .processMessage 1704067260000
      ("EvMsgVer:1,EvNum:4,Time:1704067260,Pid:4321,SvrTblInd:0,VwrTblInd:0,Code:101,Mode:2," ++
        "SvrIp:192.168.0.11,VwrIp:10.0.0.255")]

/-- The laboratory is deleted while its PC is in use. -/
theorem labSession_cut_off :
    ¬ ∀ (environment : Environment) (world : World), Application.Reachable environment world →
      ∀ operation : Operation, operation.KeepsInUse environment world := by
  intro keeps
  have reached : Application.Reachable .dev (run (step .dev) laboratory labSession) :=
    ⟨[createLab, registerInLab "PC-1"] ++ labSession, run_append _ _ _ _⟩
  have active : ∃ remotePc ∈ (run (step .dev) laboratory labSession).db.remotePc.rows,
      remotePc.status = .active ∧
        ∀ row ∈ (step .dev (run (step .dev) laboratory labSession)
          (.deleteGroup 2)).db.remotePc.rows, row.id ≠ remotePc.id := by decide +kernel
  obtain ⟨remotePc, present, active, gone⟩ := active
  obtain ⟨after, kept, same⟩ := keeps .dev _ reached (.deleteGroup 2) remotePc present active
  exact gone after kept same.1.symm

end MegaVnc
