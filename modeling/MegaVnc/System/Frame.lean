import MegaVnc.System.Application

/-! # What an operation writes

Every operation leaves the tables as they are that it does not write, the upload
directory unless it is about files, and sends no status update unless it handles
a line of the repeater.
-/

namespace MegaVnc

open Relational Fallible Application

/-- The tables of the database. -/
inductive TableName where
  | segment
  | member
  | memberGroup
  | remotePc
  | fileInfo
  | accessLogs
deriving DecidableEq

/-- The table is the same in both databases. -/
def TableName.Same (table : TableName) (first second : Database) : Prop :=
  match table with
  | .segment => first.segment = second.segment
  | .member => first.member = second.member
  | .memberGroup => first.memberGroup = second.memberGroup
  | .remotePc => first.remotePc = second.remotePc
  | .fileInfo => first.fileInfo = second.fileInfo
  | .accessLogs => first.accessLogs = second.accessLogs

theorem TableName.Same.refl (table : TableName) (db : Database) : table.Same db db := by
  cases table <;> rfl

namespace Operation

/-- The tables an operation can write. A start loses values of every sequence. -/
def writes : Operation → List TableName
  | .dataLoader _ => [.segment, .member, .memberGroup, .remotePc, .fileInfo]
  | .connectSettingRepeater _ | .disAssignRemotePc _ | .registerRemotePcApi _
  | .registerRemotePcWeb _ | .deleteRemotePc _ _ => [.remotePc]
  | .processMessage _ _ => [.remotePc, .accessLogs]
  | .createGroup _ => [.segment, .memberGroup]
  | .deleteGroup _ => [.segment, .memberGroup, .remotePc]
  | .createUser _ | .processChangePassword _ _ => [.member]
  | .deleteUser _ => [.member, .memberGroup]
  | .assignGroup _ | .disassignGroup _ _ => [.memberGroup]
  | .uploadFile _ _ _ _ _ | .downloadFile _ _ | .deleteDistributionFile _ _
  | .cleanupOldFiles _ _ => [.fileInfo]
  | .deleteOldLogs _ => [.accessLogs]
  | .getRemotePcStatus _ | .showRemotePcs _ _ | .showViewer _ _ | .showFiles _ | .listFiles => []

/-- Uploads, downloads and deletions of files. -/
def isFileTransfer : Operation → Bool
  | .uploadFile _ _ _ _ _ | .downloadFile _ _ | .deleteDistributionFile _ _
  | .cleanupOldFiles _ _ => true
  | _ => false

end Operation

variable {environment : Environment} {world : World} {operation : Operation} {table : TableName}

theorem transact_same {transaction : Except Exception (Reply × Database)}
    (same : ∀ reply db, transaction = .ok (reply, db) → table.Same db world.db) :
    table.Same (transact world transaction).2.db world.db :=
  transact_holds (fun db => table.Same db world.db) (.refl table world.db) same

/-- A service that returns the database. -/
theorem transact_done_same {service : Except Exception Database}
    (same : ∀ db, service = .ok db → table.Same db world.db) :
    table.Same (transact world do
      let db ← service
      pure (.done, db)).2.db world.db := by
  apply transact_same
  intro reply db ok
  obtain ⟨returned, rfl⟩ := done_eq_ok.mp ok
  exact same db returned

/-- A service that only reads. -/
theorem transact_read_same {Read : Type} {service : Except Exception Read} {answer : Read → Reply} :
    table.Same (transact world do
      let result ← service
      pure (answer result, world.db)).2.db world.db := by
  apply transact_same
  intro reply db ok
  simp only [bind_eq_ok, pure_eq_ok] at ok
  obtain ⟨_, -, read⟩ := ok
  cases read
  exact .refl table world.db

/-- A registration writes PCs alone. -/
theorem register_same {exception : ErrorCode → String → Exception} {notSelected : String}
    {registerRemotePcDto : RegisterRemotePcDto} (untouched : table ≠ .remotePc) :
    table.Same (transact world do
      let db ← RemotePcApiService.registerRemotePcWith exception notSelected world.db
        registerRemotePcDto
      pure (.done, db)).2.db world.db := by
  apply transact_done_same
  intro db registered
  obtain ⟨_, _, _, -, inserted⟩ :=
    RemotePcApiService.registerRemotePcWith_eq_ok_iff.mp registered
  obtain ⟨_, _, -, -, -, after, rfl, -⟩ := Database.insertRemotePc_eq_ok inserted
  cases table with
  | remotePc => exact (untouched rfl).elim
  | _ => rfl

/-- The commit of an entity leaves every table but that of the PCs. -/
theorem flush_same {db next : Database} {entity : Managed} (flushed : db.flush entity = .ok next)
    (untouched : table ≠ .remotePc) : table.Same next db := by
  unfold Database.flush at flushed
  split at flushed
  · cases flushed
    exact .refl table db
  · obtain ⟨_, -, after, rfl, -⟩ := Database.updateRemotePc_eq_ok flushed
    cases table with
    | remotePc => exact (untouched rfl).elim
    | _ => rfl

/-- A file transfer writes no table but `file_info`. -/
theorem fileTransfer_same (files : operation.isFileTransfer = true)
    (untouched : table ≠ .fileInfo) :
    table.Same (step environment world operation).db world.db := by
  have elsewhere {after : Table FileInfo} :
      table.Same { world.db with fileInfo := after } world.db := by
    cases table with
    | fileInfo => exact (untouched rfl).elim
    | _ => rfl
  cases operation with
  | uploadFile now file repeaterId user fault =>
      change table.Same (FileService.uploadFile environment world now file repeaterId user
        fault).2.db world.db
      rcases FileService.uploadFile_cases environment world now file repeaterId user fault with
        ⟨exception, disk, refused, -⟩ | ⟨reconnectId, encrypted, addressed, storable⟩
      · rw [refused]
        exact .refl table world.db
      · obtain ⟨after, disk, stored, -⟩ := FileService.uploadFile_stored addressed storable
        rw [stored]
        exact elsewhere
  | downloadFile fileSeq fault =>
      change table.Same (Application.downloadFile environment world fileSeq fault).2.db world.db
      unfold Application.downloadFile
      split
      · exact .refl table world.db
      · next downloaded =>
          obtain ⟨fileInfo, encrypted, -, -, -, rfl⟩ := FileService.downloadFile_eq_ok.mp downloaded
          dsimp only
          split
          · exact .refl table world.db
          · exact elsewhere
  | deleteDistributionFile fileSeq deleteFails =>
      simp only [step, perform]
      split
      · next deleted =>
          obtain ⟨fileInfo, encrypted, -, -, rfl⟩ :=
            FileService.deleteDistributionFile_eq_ok deleted
          exact elsewhere
      · exact .refl table world.db
  | cleanupOldFiles daysAgo cannotDelete =>
      change table.Same (FileService.cleanupOldFiles environment world daysAgo _).2.db world.db
      rcases FileService.cleanupOldFiles_cases environment world daysAgo _ with
        ⟨-, cleaned⟩ | ⟨-, exception, disk, thrown⟩
      · rw [cleaned]
        cases table with
        | fileInfo => exact (untouched rfl).elim
        | _ => exact FileService.deleteRows_keeps _ (fun _ _ => rfl)
      · rw [thrown]
        exact .refl table world.db
  | _ => cases files

/-- A table an operation does not write stays as it is. -/
theorem step_same (untouched : table ∉ operation.writes) :
    table.Same (step environment world operation).db world.db := by
  cases operation with
  | dataLoader lostKeys =>
      cases table with
      | accessLogs =>
          exact MegaVncApplication.dataLoader_keeps Database.accessLogs (fun _ _ => rfl)
            (fun _ _ => rfl) (fun _ _ => rfl) environment.encodePassword_fits
            (world.db.skipKeys lostKeys)
      | _ => simp [Operation.writes] at untouched
  | connectSettingRepeater remotePcDto =>
      apply transact_same
      intro reply db ok
      simp only [RemotePcApiService.connectSettingRepeater, bind_eq_ok, pure_eq_ok] at ok
      obtain ⟨_, ⟨entity, -, next, flushed, rfl⟩, same⟩ := ok
      cases same
      exact flush_same flushed fun same => untouched (same ▸ List.mem_cons_self)
  | disAssignRemotePc reconnectId =>
      apply transact_done_same
      intro db released
      simp only [RemotePcApiService.disAssignRemotePcByRepeaterId, bind_eq_ok] at released
      obtain ⟨entity, -, flushed⟩ := released
      exact flush_same flushed fun same => untouched (same ▸ List.mem_cons_self)
  | processMessage now message =>
      change table.Same (MessageService.processMessage world now message).2.db world.db
      rcases MessageService.processMessage_world world now message with
        same | ⟨_, _, after, accessLogs, broadcasts, -, -, changed, -⟩
      · rw [same]
        exact .refl table world.db
      · rw [changed]
        cases table with
        | remotePc => simp [Operation.writes] at untouched
        | accessLogs => simp [Operation.writes] at untouched
        | _ => rfl
  | registerRemotePcApi registerRemotePcDto =>
      exact register_same fun same => untouched (same ▸ List.mem_cons_self)
  | registerRemotePcWeb registerRemotePcDto =>
      exact register_same fun same => untouched (same ▸ List.mem_cons_self)
  | deleteRemotePc user id =>
      apply transact_same
      intro reply db ok
      obtain ⟨groupName, deleted, rfl⟩ := (answered_eq_ok .deleted).mp ok
      obtain ⟨-, rfl⟩ := RemotePcService.deletePc_eq_ok deleted
      cases table with
      | remotePc => simp [Operation.writes] at untouched
      | _ => rfl
  | createGroup groupName =>
      apply transact_done_same
      intro db registered
      obtain ⟨_, -, -, admin, -, segment, memberGroup, rfl, -⟩ :=
        AdminGroupService.register_eq_ok registered
      cases table with
      | segment => simp [Operation.writes] at untouched
      | memberGroup => simp [Operation.writes] at untouched
      | _ => rfl
  | deleteGroup groupId =>
      apply transact_done_same
      intro db deleted
      obtain ⟨-, rfl⟩ := AdminGroupService.deleteGroup_eq_ok deleted
      cases table with
      | segment => simp [Operation.writes] at untouched
      | memberGroup => simp [Operation.writes] at untouched
      | remotePc => simp [Operation.writes] at untouched
      | _ => rfl
  | createUser user =>
      apply transact_done_same
      intro db registered
      obtain ⟨_, -, -, password, member, rfl, -⟩ :=
        AdminUserService.register_eq_ok environment.encodePassword_fits registered
      cases table with
      | member => simp [Operation.writes] at untouched
      | _ => rfl
  | deleteUser memberId =>
      apply transact_done_same
      intro db deleted
      obtain ⟨-, rfl⟩ := AdminUserService.deleteUser_eq_ok deleted
      cases table with
      | member => simp [Operation.writes] at untouched
      | memberGroup => simp [Operation.writes] at untouched
      | _ => rfl
  | assignGroup assignGroupDto =>
      apply transact_done_same
      intro db assigned
      obtain ⟨member, -, group, -, -, memberGroup, rfl, -⟩ :=
        AdminAssignService.assignGroup_eq_ok assigned
      cases table with
      | memberGroup => simp [Operation.writes] at untouched
      | _ => rfl
  | disassignGroup memberId groupId =>
      apply transact_done_same
      intro db disassigned
      obtain ⟨-, rfl⟩ := AdminAssignService.disassignGroup_eq_ok disassigned
      cases table with
      | memberGroup => simp [Operation.writes] at untouched
      | _ => rfl
  | processChangePassword changePassword user =>
      apply transact_same
      intro reply db ok
      obtain ⟨view, changed, rfl⟩ := (answered_eq_ok .view).mp ok
      rcases ChangePasswordController.processChangePassword_eq_ok changed with
        rfl | ⟨member, -, newPassword, after, rfl, -⟩
      · exact .refl table world.db
      · cases table with
        | member => simp [Operation.writes] at untouched
        | _ => rfl
  | deleteOldLogs cutoff =>
      cases table with
      | accessLogs => simp [Operation.writes] at untouched
      | _ => rfl
  | getRemotePcStatus repeaterId => exact transact_read_same
  | showRemotePcs user selectedGroupName => exact transact_read_same
  | showViewer user id => exact transact_read_same
  | showFiles reconnectId => exact .refl table world.db
  | listFiles => exact .refl table world.db
  | _ => exact fileTransfer_same rfl fun same => untouched (same ▸ List.mem_cons_self)

/-- A transaction leaves the disk. -/
theorem transact_disk (world : World) (transaction : Except Exception (Reply × Database)) :
    (transact world transaction).2.disk = world.disk := by
  rcases transact_cases world transaction with ⟨exception, -, failed⟩ | ⟨reply, db, ok, committed⟩
  · rw [failed]
  · rw [committed]
    rfl

/-- A transaction tells the browsers nothing. -/
theorem transact_broadcasts (world : World) (transaction : Except Exception (Reply × Database)) :
    (transact world transaction).2.broadcasts = world.broadcasts := by
  rcases transact_cases world transaction with ⟨exception, -, failed⟩ | ⟨reply, db, ok, committed⟩
  · rw [failed]
  · rw [committed]
    rfl

/-- Only a file transfer touches the upload directory. -/
theorem step_disk (other : operation.isFileTransfer = false) :
    (step environment world operation).disk = world.disk := by
  cases operation with
  | uploadFile now file repeaterId user fault => cases other
  | downloadFile fileSeq fault => cases other
  | deleteDistributionFile fileSeq deleteFails => cases other
  | cleanupOldFiles daysAgo cannotDelete => cases other
  | processMessage now message =>
      change (MessageService.processMessage world now message).2.disk = world.disk
      rcases MessageService.processMessage_world world now message with
        same | ⟨_, _, after, accessLogs, broadcasts, -, -, changed, -⟩
      · rw [same]
      · rw [changed]
  | dataLoader lostKeys => rfl
  | showFiles reconnectId => rfl
  | listFiles => rfl
  | deleteOldLogs cutoff => rfl
  | _ => exact transact_disk world _

/-- Only a line of the repeater sends a status update. -/
theorem step_broadcasts (other : ∀ now message, operation ≠ .processMessage now message) :
    (step environment world operation).broadcasts = world.broadcasts := by
  cases operation with
  | processMessage now message => exact (other now message rfl).elim
  | uploadFile now file repeaterId user fault =>
      change (FileService.uploadFile environment world now file repeaterId user
        fault).2.broadcasts = world.broadcasts
      rcases FileService.uploadFile_cases environment world now file repeaterId user fault with
        ⟨exception, disk, refused, -⟩ | ⟨reconnectId, encrypted, addressed, storable⟩
      · rw [refused]
      · obtain ⟨after, disk, stored, -⟩ := FileService.uploadFile_stored addressed storable
        rw [stored]
  | downloadFile fileSeq fault =>
      change (Application.downloadFile environment world fileSeq fault).2.broadcasts = _
      unfold Application.downloadFile
      split
      · rfl
      · rfl
  | deleteDistributionFile fileSeq deleteFails =>
      simp only [step, perform]
      split
      · next deleted =>
          obtain ⟨fileInfo, encrypted, -, -, rfl⟩ :=
            FileService.deleteDistributionFile_eq_ok deleted
          rfl
      · rfl
  | cleanupOldFiles daysAgo cannotDelete =>
      change (FileService.cleanupOldFiles environment world daysAgo _).2.broadcasts = _
      rcases FileService.cleanupOldFiles_cases environment world daysAgo _ with
        ⟨-, cleaned⟩ | ⟨-, exception, disk, thrown⟩
      · rw [cleaned]
      · rw [thrown]
  | dataLoader lostKeys => rfl
  | showFiles reconnectId => rfl
  | listFiles => rfl
  | deleteOldLogs cutoff => rfl
  | _ => exact transact_broadcasts world _

end MegaVnc
