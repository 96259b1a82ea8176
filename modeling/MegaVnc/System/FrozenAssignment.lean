import MegaVnc.System.DomainIntegrity
import MegaVnc.System.Holder

/-! # An assignment is frozen while it lasts

An assigned PC keeps the time of its assignment and its reconnectId whatever
happens to it, short of its release by that reconnectId and its deletion. All
that time a call that names the PC is answered to its holder alone, as long as no
other PC of its group has its name: the call looks for the name among the PCs of
all groups, then for the group, and takes the first one.
-/

namespace MegaVnc

open Relational Fallible Application Transition
open RemotePcApiService (connectTransaction connectTransaction_eq_ok)

/-- The operation is no release by the reconnectId, and the PC with the id is
still there after it. -/
def Operation.Spares (environment : Environment) (world : World) (operation : Operation)
    (reconnectId : String) (id : Long) : Prop :=
  operation ≠ .disAssignRemotePc reconnectId ∧
    ∃ row ∈ (step environment world operation).db.remotePc.rows, row.id = id

instance (environment : Environment) (world : World) (operation : Operation)
    (reconnectId : String) (id : Long) :
    Decidable (operation.Spares environment world reconnectId id) :=
  inferInstanceAs (Decidable (_ ∧ _))

/-- The call names the PC and its group. -/
def RequestRemotePcDto.Names (remotePcDto : RequestRemotePcDto) (db : Database)
    (remotePc : RemotePc) : Prop :=
  remotePcDto.pcName = some remotePc.name ∧
    ∃ group ∈ db.segment.rows, group.id = remotePc.group ∧ remotePcDto.groupName = group.groupName

/-- The PC is stored with the assignment of `old`. -/
def StillAssigned (db : Database) (old : RemotePc) : Prop :=
  ∃ remotePc ∈ db.remotePc.rows, old.SameIdentity remotePc ∧
    remotePc.assignedAt = old.assignedAt ∧ remotePc.reconnectId = old.reconnectId

variable {environment : Environment} {world : World} {operation : Operation}
  {operations : List Operation} {db : Database} {remotePc old new : RemotePc}
  {remotePcDto : RequestRemotePcDto} {reconnectId : String}

/-- What happens to an assigned PC leaves its assignment, unless it is released
by its reconnectId. -/
theorem RemotePc.Change.frozen (change : old.Change db operation new)
    (present : old ∈ db.remotePc.rows) (assigned : old.assignedAt ≠ none)
    (holds : old.reconnectId = some reconnectId)
    (kept : operation ≠ .disAssignRemotePc reconnectId) :
    new.assignedAt = old.assignedAt ∧ new.reconnectId = old.reconnectId := by
  cases change with
  | @connected remotePcDto group sent stays inGroup found free given keeps answered =>
      refine ⟨RemotePcApiService.connected_assignedAt old, ?_⟩
      rw [RemotePcApiService.connected_reconnectId]
      split
      · rfl
      · rcases free with unassigned | taken
        · exact (assigned unassigned).elim
        -- The column keeps the stored reconnectId as it is.
        · cases keeps.symm.trans (Database.varchar_of_holds present taken)
          exact taken.symm
  | @released released found =>
      have holder := (Database.findByReconnectId_eq_ok_some found).2
      have same : released = reconnectId := Option.some.inj (holder.symm.trans holds)
      exact (kept (congrArg _ same)).elim
  | @signalled now message evNum signals =>
      refine ⟨?_, rfl⟩
      rw [MessageService.afterEvent, if_neg fun both => assigned both.1]

/-- An operation that spares an assigned PC keeps it assigned. -/
theorem StillAssigned.step (still : StillAssigned world.db old) (assigned : old.assignedAt ≠ none)
    (holds : old.reconnectId = some reconnectId)
    (spares : operation.Spares environment world reconnectId old.id) :
    StillAssigned (step environment world operation).db old := by
  obtain ⟨kept, row, rowIn, sameRow⟩ := spares
  obtain ⟨remotePc, member, identity, sameTime, sameHolder⟩ := still
  rcases mem_step_of_mem environment operation member with
    ⟨new, present, -, rfl | change⟩ | ⟨-, gone⟩
  · exact ⟨new, present, identity, sameTime, sameHolder⟩
  · obtain ⟨time, holder⟩ :=
      change.frozen member (sameTime ▸ assigned) (sameHolder.trans holds) kept
    exact ⟨new, present, identity.trans change.sameIdentity, time.trans sameTime,
      holder.trans sameHolder⟩
  · exact (gone row rowIn (sameRow.trans identity.1)).elim

/-- A run of such operations keeps it assigned. -/
theorem stillAssigned_run (member : old ∈ world.db.remotePc.rows)
    (assigned : old.assignedAt ≠ none) (holds : old.reconnectId = some reconnectId)
    (spares : Along (step environment) (fun world operation =>
      operation.Spares environment world reconnectId old.id) world operations) :
    StillAssigned (run (step environment) world operations).db old :=
  spares.run_invariant (fun world => StillAssigned world.db old)
    (fun _ _ spared still => still.step assigned holds spared)
    ⟨old, member, ⟨rfl, rfl, rfl, rfl, rfl⟩, rfl, rfl⟩

/-! ### The calls that name the PC -/

/-- Among the PCs of its name, a PC that is alone in its group is found by the group. -/
theorem AloneInGroup.find? (alone : AloneInGroup db remotePc)
    (member : remotePc ∈ db.remotePc.rows) :
    (db.findByName (some remotePc.name)).find? (fun row => row.group = remotePc.group) =
      some remotePc := by
  have listed : remotePc ∈ db.findByName (some remotePc.name) :=
    List.mem_filter.mpr ⟨member, decide_eq_true rfl⟩
  cases result : (db.findByName (some remotePc.name)).find? fun row =>
      row.group = remotePc.group with
  | none => exact (List.find?_eq_none.mp result remotePc listed (decide_eq_true rfl)).elim
  | some found =>
      have inGroup := List.find?_some result
      obtain ⟨present, named⟩ := List.mem_filter.mp (List.mem_of_find?_eq_some result)
      have sameName := Option.some.inj (of_decide_eq_true named)
      rw [Table.eq_of_key_eq present member
        (alone found present sameName (of_decide_eq_true inGroup))]

/-- A call finds the PC it names. -/
theorem RequestRemotePcDto.Names.found (names : remotePcDto.Names db remotePc) (intact : Intact db)
    (member : remotePc ∈ db.remotePc.rows) (alone : AloneInGroup db remotePc) :
    ∃ group, db.findByGroupName remotePcDto.groupName = some group ∧
      (db.findByName remotePcDto.pcName).find? (fun row => row.group = group.id) =
        some remotePc := by
  obtain ⟨pcName, group, groupIn, sameGroup, groupName⟩ := names
  refine ⟨group, ?_, ?_⟩
  · rw [groupName]
    exact intact.groupNamesApart.findByGroupName groupIn
  · rw [pcName, sameGroup]
    exact alone.find? member

/-- A call that names an assigned PC is granted it with the PC's password and
the reconnectId it holds, and leaves it as it is. -/
theorem connectTransaction_assigned (intact : Intact db) (member : remotePc ∈ db.remotePc.rows)
    (alone : AloneInGroup db remotePc) (assigned : remotePc.assignedAt ≠ none)
    (holds : remotePc.reconnectId = some reconnectId)
    (names : remotePcDto.Names db remotePc) (entity : Managed) :
    connectTransaction db remotePcDto = .ok entity ↔
      remotePcDto.accessPassword = some remotePc.accessPassword ∧
        remotePcDto.reconnectId = some reconnectId ∧
        entity = { loaded := remotePc, current := remotePc } := by
  obtain ⟨group, inGroup, found⟩ := names.found intact member alone
  have unchanged : RemotePcApiService.connected reconnectId remotePc = remotePc := by
    unfold RemotePcApiService.connected
    split
    · rw [RemotePc.updateReconnectId, ← holds]
    · rfl
  rw [connectTransaction_eq_ok]
  constructor
  · rintro ⟨group', remotePc', sent, inGroup', found', free, password, given, rfl⟩
    obtain rfl := Option.some.inj (inGroup.symm.trans inGroup')
    obtain rfl := Option.some.inj (found.symm.trans found')
    rcases free with unassigned | taken
    · exact (assigned unassigned).elim
    · obtain rfl := Option.some.inj (holds.symm.trans taken)
      rw [unchanged]
      exact ⟨password, given, rfl⟩
  · rintro ⟨password, given, rfl⟩
    refine ⟨group, remotePc, reconnectId, inGroup, found, Or.inr holds, password, given, ?_⟩
    rw [unchanged]

/-- A call that names an assigned PC succeeds for its holder alone, and returns
the PC's id. -/
theorem perform_connect_assigned (intact : Intact world.db)
    (member : remotePc ∈ world.db.remotePc.rows) (alone : AloneInGroup world.db remotePc)
    (assigned : remotePc.assignedAt ≠ none) (holds : remotePc.reconnectId = some reconnectId)
    (names : remotePcDto.Names world.db remotePc) (reply : Reply) :
    (perform environment world (.connectSettingRepeater remotePcDto)).1 = .ok reply ↔
      remotePcDto.accessPassword = some remotePc.accessPassword ∧
        remotePcDto.reconnectId = some reconnectId ∧ reply = .repeaterId remotePc.repeaterId := by
  have granted := connectTransaction_assigned intact member alone assigned holds names
  constructor
  · intro answered
    have completed : perform environment world (.connectSettingRepeater remotePcDto) =
        (.ok reply, step environment world (.connectSettingRepeater remotePcDto)) :=
      Prod.ext answered rfl
    obtain ⟨db, ok, -⟩ := transact_eq_ok.mp completed
    simp only [RemotePcApiService.connectSettingRepeater, bind_eq_ok, pure_eq_ok] at ok
    obtain ⟨_, ⟨entity, transaction, next, -, rfl⟩, same⟩ := ok
    obtain ⟨password, given, rfl⟩ := (granted entity).mp transaction
    cases same
    exact ⟨password, given, rfl⟩
  · rintro ⟨password, given, rfl⟩
    have clean : world.db.flush { loaded := remotePc, current := remotePc } = .ok world.db := by
      simp only [Database.flush, Managed.dirty, ↓reduceIte]
    have connected : RemotePcApiService.connectSettingRepeater world.db remotePcDto =
        .ok (remotePc.repeaterId, world.db) :=
      bind_eq_ok.mpr ⟨_, (granted _).mpr ⟨password, given, rfl⟩, bind_eq_ok.mpr ⟨_, clean, rfl⟩⟩
    rw [perform_connect connected]

/-- From its assignment on, and through all that does not release it by its
reconnectId or delete it, a PC keeps both columns. Wherever no other PC of its group has
its name, a call that names it is answered to its holder alone. The names stay apart as
long as no registration is cut onto one of them. -/
theorem assignment_frozen (reached : Reachable environment world)
    (member : old ∈ world.db.remotePc.rows) (assigned : old.assignedAt ≠ none)
    (holds : old.reconnectId = some reconnectId)
    (spares : Along (step environment) (fun world operation =>
      operation.Spares environment world reconnectId old.id) world operations)
    {before : List Operation} (passed : before <+: operations) :
    StillAssigned (run (step environment) world before).db old ∧
      (AloneInGroup (run (step environment) world before).db old →
        ∀ remotePcDto : RequestRemotePcDto,
          remotePcDto.Names (run (step environment) world before).db old → ∀ reply,
            (perform environment (run (step environment) world before)
                (.connectSettingRepeater remotePcDto)).1 = .ok reply ↔
              remotePcDto.accessPassword = some old.accessPassword ∧
                remotePcDto.reconnectId = some reconnectId ∧
                reply = .repeaterId old.repeaterId) ∧
      (PcNamesApart world.db.remotePc.rows →
        Along (step environment) (fun world operation => ¬ operation.CutsOnto world.db) world
          before →
        AloneInGroup (run (step environment) world before).db old) := by
  obtain ⟨rest, rfl⟩ := passed
  have still := stillAssigned_run member assigned holds (along_append.mp spares).1
  have ⟨remotePc, present, sameIdentity, sameTime, sameHolder⟩ := still
  have ⟨_, sameRepeaterId, sameName, samePassword, inGroup⟩ := sameIdentity
  refine ⟨still, fun alone remotePcDto ⟨pcName, group, groupIn, sameGroup, groupName⟩ reply => ?_,
    fun apart uncut => ?_⟩
  · have later : Application.Reachable environment (run (step environment) world before) :=
      reached.run before
    rw [samePassword, sameRepeaterId]
    exact perform_connect_assigned later.intact present
      ((aloneInGroup_congr sameIdentity).mp alone)
      (sameTime ▸ assigned) (sameHolder.trans holds)
      ⟨sameName ▸ pcName, group, groupIn, sameGroup.trans inGroup, groupName⟩ reply
  · have stays := apart.run reached.exists_basePc uncut
    exact (aloneInGroup_congr sameIdentity).mpr (stays.aloneInGroup present)

/-- Another client and the repeater meet the assigned base PC. -/
def rivalsOfBase : List Operation :=
  [.connectSettingRepeater (baseConnect "app-2"), .disAssignRemotePc "app-2", baseServerConnect]

theorem namedBase_frozen :
    StillAssigned (run (step .dev) namedBase rivalsOfBase).db namedBasePc ∧
      (AloneInGroup (run (step .dev) namedBase rivalsOfBase).db namedBasePc →
        ∀ remotePcDto : RequestRemotePcDto,
          remotePcDto.Names (run (step .dev) namedBase rivalsOfBase).db namedBasePc → ∀ reply,
            (perform .dev (run (step .dev) namedBase rivalsOfBase)
                (.connectSettingRepeater remotePcDto)).1 = .ok reply ↔
              remotePcDto.accessPassword = some "1234" ∧
                remotePcDto.reconnectId = some "app-1" ∧ reply = .repeaterId 100) ∧
      (PcNamesApart namedBase.db.remotePc.rows →
        Along (step .dev) (fun world operation => ¬ operation.CutsOnto world.db) namedBase
          rivalsOfBase →
        AloneInGroup (run (step .dev) namedBase rivalsOfBase).db namedBasePc) := by
  have member : namedBasePc ∈ namedBase.db.remotePc.rows := by decide +kernel
  have spares : Along (step .dev) (fun world operation =>
      operation.Spares .dev world "app-1" namedBasePc.id) namedBase rivalsOfBase := by
    decide +kernel
  exact assignment_frozen ⟨nameAndConnect, rfl⟩ member (by decide) rfl spares List.prefix_rfl

/-- The server of a PC connects whose name was cut to that of an older one. -/
def namesakeConnects : List Operation :=
  [registerInBaseGroup wideName, registerInBaseGroup (wideName.push ' '),
    .processMessage 1704067200000
      "EvMsgVer:1,EvNum:2,Time:1704067200,Pid:4321,TblInd:0,Code:102,Mode:2,Ip:192.168.0.10"]

/-- The second PC of the name, assigned without a reconnectId. -/
def namesakePc : RemotePc where
  id := 3
  repeaterId := 102
  name := wideName
  assignedAt := some 1704067200000
  status := .standby
  accessPassword := "1234"
  reconnectId := some ""
  group := 1

/-- A call that names the PC, with its password and its reconnectId. -/
def namesakeCall : RequestRemotePcDto where
  groupName := some "BaseGroup"
  pcName := some wideName
  accessPassword := some "1234"
  reconnectId := some ""

/-- The PC is assigned and in the group of the call, which is answered with the older PC. -/
theorem namesakeCall_answered :
    namesakePc ∈ (run (step .dev) (initial .dev) namesakeConnects).db.remotePc.rows ∧
      ({ id := 1, groupName := some "BaseGroup" } : Group) ∈
        (run (step .dev) (initial .dev) namesakeConnects).db.segment.rows ∧
      (perform .dev (run (step .dev) (initial .dev) namesakeConnects)
        (.connectSettingRepeater namesakeCall)).1 = .ok (.repeaterId 101) := by
  decide +kernel

/-- A call with the password and the reconnectId of the assigned PC is given the other PC
of its name. -/
theorem namesake_granted :
    ¬ ∀ (environment : Environment) (world : World) (remotePc : RemotePc) (reconnectId : String)
        (remotePcDto : RequestRemotePcDto) (reply : Reply), Reachable environment world →
      remotePc ∈ world.db.remotePc.rows → remotePc.assignedAt ≠ none →
      remotePc.reconnectId = some reconnectId → remotePcDto.Names world.db remotePc →
      ((perform environment world (.connectSettingRepeater remotePcDto)).1 = .ok reply ↔
        remotePcDto.accessPassword = some remotePc.accessPassword ∧
          remotePcDto.reconnectId = some reconnectId ∧
          reply = .repeaterId remotePc.repeaterId) := by
  intro frozen
  obtain ⟨present, group, older⟩ := namesakeCall_answered
  have names : namesakeCall.Names (run (step .dev) (initial .dev) namesakeConnects).db namesakePc :=
    ⟨rfl, _, group, rfl, rfl⟩
  have answered := (frozen .dev _ namesakePc "" namesakeCall (.repeaterId 102)
    ⟨namesakeConnects, rfl⟩ present (Option.some_ne_none _) rfl names).mpr ⟨rfl, rfl, rfl⟩
  exact absurd (older.symm.trans answered) (by decide)

end MegaVnc
