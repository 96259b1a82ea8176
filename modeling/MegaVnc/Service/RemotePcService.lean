import MegaVnc.Repository.World
import MegaVnc.Service.RemotePcApiService

/-! # RemotePcService

The operations of the web pages, and the status change the repeater's events
cause.
-/

namespace MegaVnc

open Relational Fallible

/-- What the pages show of a PC. -/
structure ResponseRemotePcDto where
  id : Long
  group : Long
  name : String
  assignedAt : Option Date
  status : Status
deriving DecidableEq, Repr

/-- The fields are copied from the PC. -/
def ResponseRemotePcDto.ofRemotePc (remotePc : RemotePc) : ResponseRemotePcDto where
  id := remotePc.id
  group := remotePc.group
  name := remotePc.name
  assignedAt := remotePc.assignedAt
  status := remotePc.status

namespace RemotePcService

/-- The selection that stands for all groups of the user. -/
def allGroup : String := "All Group"

/-- The rows are listed by their ids. -/
def sortById (responses : List ResponseRemotePcDto) : List ResponseRemotePcDto :=
  responses.insertionSort fun first second => first.id ≤ second.id

/-- A principal without a stored member is taken for a fault of the program. -/
def memberNotFound : Exception :=
  .usernameNotFoundException "코드를 수정하여 존재하지 않는 멤버에 대한 접근을 막으세요"

/-- The PCs of several groups, listed by their ids. -/
def findByGroups (db : Database) (groups : List Group) : List ResponseRemotePcDto :=
  sortById (groups.flatMap fun group => (db.findByGroup group.id).map .ofRemotePc)

/-- The PCs of one group, for its members only. -/
def findByGroupName (db : Database) (groupName : String) (user : User) :
    Except Exception (List ResponseRemotePcDto) := do
  let group ← orElseThrow (db.findByGroupName (some groupName))
    (.remotePc .groupNotFound "해당 그룹을 추가해 주세요.")
  let member ← orElseThrow (db.findByUsername user.username) memberNotFound
  let myGroups := db.findByMemberAndGroup member group.id
  throwIf (myGroups = []) (.remotePc .ownGroupOnly "")
  pure (sortById ((db.findByGroup group.id).map .ofRemotePc))

/-- The foreign key of a membership always finds its group. -/
def findGroupByMember (db : Database) (user : User) : Except Exception (List Group) := do
  let member ← orElseThrow (db.findByUsername user.username) memberNotFound
  let myGroups := db.findByMember member
  pure (myGroups.filterMap fun memberGroup => db.segment.findById memberGroup.group)

/-- The registration of a page, where the selection of all groups names no group. -/
def registerRemotePc (db : Database) (registerRemotePcDto : RegisterRemotePcDto) :
    Except Exception Database :=
  RemotePcApiService.registerRemotePcWith .remotePc allGroup db registerRemotePcDto

/-- The change made to the entity: a PC that becomes standby without being
assigned is assigned. -/
def applyStatus (now : Date) (status : Status) (remotePc : RemotePc) : RemotePc :=
  let remotePc := remotePc.updateStatus status
  if remotePc.assignedAt = none ∧ status = .standby then remotePc.assign now else remotePc

/-- `remotePc` was read in an earlier transaction. The message is sent before
the row is saved. -/
def setRemotePcStatus (world : World) (now : Date) (remotePc : RemotePc) (status : Status) :
    Except Exception RemotePc × World :=
  let remotePc := applyStatus now status remotePc
  let world := world.sendStatusUpdate
    { pcId := remotePc.id, status := status.toValue, registeredAt := remotePc.assignedAt }
  match world.db.saveRemotePc remotePc with
  | .ok db => (.ok remotePc, world.withDb db)
  | .error exception => (.error exception, world)

/-- A PC for its viewer, unless it is offline or of a group the user is not in. -/
def findById (db : Database) (user : User) (id : Long) : Except Exception RemotePc := do
  let remotePc ← orElseThrow (db.remotePc.findById id) (.remotePc .pcNotFound "")
  throwIf (remotePc.status = .offline) (.remotePc .offlineStatus "페이지를 새로고침 해주세요.")
  let member ← orElseThrow (db.findByUsername user.username) memberNotFound
  let myGroups := db.findByMemberAndGroup member remotePc.group
  throwIf (myGroups = []) (.remotePc .ownGroupOnly "")
  pure remotePc

/-- The response names the group of the deleted PC. -/
def deletePc (db : Database) (user : User) (remotePcId : Long) :
    Except Exception (Option String × Database) := do
  let remotePc ← orElseThrow (db.remotePc.findById remotePcId)
    (.remotePc .pcNotFound " 페이지를 새로고침 해주세요.")
  throwIf (remotePc.status = .active)
    (.remotePc .deleteNotOnlyWhenActive "페이지를 새로고침 해주세요.")
  throwIf (remotePc.id = 1) (.remotePc .cannotDeleteDefaultPc "")
  let member ← orElseThrow (db.findByUsername user.username) memberNotFound
  let myGroups := db.findByMemberAndGroup member remotePc.group
  throwIf (myGroups = []) (.remotePc .ownGroupOnly2 "")
  let group ← orElseThrow (db.segment.findById remotePc.group) .nullPointerException
  pure (group.groupName, db.deleteRemotePcsWhere fun row => row.id = remotePcId)

/-! ### Outcomes -/

/-- Only the status and, at the start of an assignment, its time change. -/
theorem applyStatus_eq (now : Date) (status : Status) (remotePc : RemotePc) :
    applyStatus now status remotePc =
      { remotePc with
        status := status
        assignedAt := if remotePc.assignedAt = none ∧ status = .standby then some now
          else remotePc.assignedAt } := by
  unfold applyStatus
  by_cases assigns : remotePc.assignedAt = none ∧ status = .standby
  · simp only [RemotePc.updateStatus, RemotePc.assign, assigns, and_self, ↓reduceIte]
  · simp only [RemotePc.updateStatus, assigns, ↓reduceIte]

/-- An event leaves the texts of a PC as they are. -/
theorem fit_applyStatus (now : Date) (status : Status) {remotePc : RemotePc}
    (fits : fit remotePc = some remotePc) :
    fit (applyStatus now status remotePc) = some (applyStatus now status remotePc) := by
  rw [applyStatus_eq]
  obtain ⟨name, accessPassword, reconnectId⟩ := fit_remotePc_eq_self.mp fits
  exact fit_remotePc_eq_self.mpr ⟨name, accessPassword, reconnectId⟩

/-- The deleted PC was stored, not in use, and in a group of the user. -/
theorem deletePc_eq_ok {db next : Database} {user : User} {remotePcId : Long}
    {groupName : Option String} (deleted : deletePc db user remotePcId = .ok (groupName, next)) :
    (∃ remotePc member, db.remotePc.findById remotePcId = some remotePc ∧
        remotePc.status ≠ .active ∧ remotePcId ≠ 1 ∧ db.findByUsername user.username = some member ∧
        db.findByMemberAndGroup member remotePc.group ≠ []) ∧
      next = db.deleteRemotePcsWhere fun row => row.id = remotePcId := by
  simp only [deletePc, bind_eq_ok, orElseThrow_eq_ok, throwIf_eq_ok, pure_eq_ok,
    Prod.mk.injEq] at deleted
  obtain ⟨remotePc, found, -, idle, -, notDefault, member, known, -, own, _, -, -, rfl⟩ := deleted
  have named : remotePc.id = remotePcId := (Table.findById_eq_some.mp found).2
  exact ⟨⟨remotePc, member, found, idle, named ▸ notDefault, known, own⟩, rfl⟩

end RemotePcService

end MegaVnc
