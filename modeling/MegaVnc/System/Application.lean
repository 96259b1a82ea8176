import MegaVnc.FileTransfer.FileService
import MegaVnc.Foundation.Run
import MegaVnc.Service.AdminService
import MegaVnc.Tcp.MessageService

/-! # The application as a transition system

An operation is one request, one line from the repeater, one scheduled task, or
a start of the application. Here each of them runs to its end before the next
one starts.
-/

namespace MegaVnc

open Relational Fallible Transition

/-- What an endpoint, the administration, the scheduler or the repeater asks for, with what
the environment decides. -/
inductive Operation where
  | dataLoader (lostKeys : Nat)
  | connectSettingRepeater (remotePcDto : RequestRemotePcDto)
  | getRemotePcStatus (repeaterId : Long)
  | disAssignRemotePc (reconnectId : String)
  | registerRemotePcApi (registerRemotePcDto : RegisterRemotePcDto)
  | registerRemotePcWeb (registerRemotePcDto : RegisterRemotePcDto)
  | processMessage (now : Date) (message : String)
  | showRemotePcs (user : User) (selectedGroupName : Option String)
  | showViewer (user : User) (id : Long)
  | deleteRemotePc (user : User) (id : Long)
  | createGroup (groupName : Option String)
  | deleteGroup (groupId : Long)
  | createUser (user : UserRegisterDto)
  | deleteUser (memberId : Long)
  | assignGroup (assignGroupDto : AssignGroupDto)
  | disassignGroup (memberId groupId : Long)
  | processChangePassword (changePassword : ChangePasswordDto) (user : User)
  | uploadFile (now : Date) (file : MultipartFile) (repeaterId : Option Long) (user : User)
      (fault : Option UploadFault)
  | showFiles (reconnectId : Option String)
  | listFiles
  | downloadFile (fileSeq : Long) (fault : Option StreamFault)
  | deleteDistributionFile (fileSeq : Long) (deleteFails : Option String)
  | cleanupOldFiles (daysAgo : Date) (cannotDelete : List String)
  | deleteOldLogs (cutoff : Date)
deriving DecidableEq

/-- What an operation answers. -/
inductive Reply where
  | done
  | repeaterId (repeaterId : Long)
  | status (status : String)
  | remotePcs (groups : List Group) (remotePcs : List ResponseRemotePcDto)
  | viewer (status : Status) (repeaterId : Long) (pcName accessPassword : String)
  | deleted (groupName : Option String)
  | view (name : String)
  | fileSeq (seq : Long)
  | files (files : List FileInfo)
  | download (contentDisposition : String) (bytes : List UInt8) (outcome : Except Exception Unit)
deriving DecidableEq

namespace Operation

/-- A call of a client or a line of the repeater. -/
def isGrant : Operation → Bool
  | .connectSettingRepeater _ | .disAssignRemotePc _ | .processMessage _ _ => true
  | _ => false

/-- Besides these, the registration and the deletion of single PCs. -/
def isPcLifecycle : Operation → Bool
  | .registerRemotePcApi _ | .registerRemotePcWeb _ | .deleteRemotePc _ _ => true
  | operation => operation.isGrant

end Operation

namespace Application

/-- A transaction commits with a reply or changes nothing. -/
def transact (world : World) : Except Exception (Reply × Database) → Except Exception Reply × World
  | .ok (reply, db) => (.ok reply, world.withDb db)
  | .error exception => (.error exception, world)

/-- The page of the PCs, of all groups of the user or of the selected one. -/
def showRemotePcs (db : Database) (user : User) (selectedGroupName : Option String) :
    Except Exception Reply := do
  let groups ← RemotePcService.findGroupByMember db user
  let remotePcs ← match selectedGroupName with
    | none => pure (RemotePcService.findByGroups db groups)
    | some groupName =>
        if groupName = RemotePcService.allGroup then pure (RemotePcService.findByGroups db groups)
        else RemotePcService.findByGroupName db groupName user
  pure (.remotePcs groups remotePcs)

/-- The page of a PC shows what the viewer needs. -/
def showViewer (db : Database) (user : User) (id : Long) : Except Exception Reply := do
  let remotePc ← RemotePcService.findById db user id
  pure (.viewer remotePc.status remotePc.repeaterId remotePc.name remotePc.accessPassword)

/-- `String.trim` and `isEmpty`: characters up to the space are trimmed. -/
def blank (text : String) : Bool :=
  text.toList.all fun char => char ≤ ' '

/-- The page of the files of an app, which nobody sees without a reconnectId. -/
def showFiles (db : Database) (reconnectId : Option String) : Reply :=
  match reconnectId with
  | none => .view "403"
  | some reconnectId =>
      if blank reconnectId then .view "403"
      else .files (FileService.findAllByReconnectId db (some reconnectId))

/-- A download answers, and its body may fail while it is streamed. -/
def downloadFile (environment : Environment) (world : World) (fileSeq : Long)
    (fault : Option StreamFault) : Except Exception Reply × World :=
  match FileService.downloadFile environment world.db fileSeq with
  | .error exception => (.error exception, world)
  | .ok (response, db) =>
      let (bytes, outcome, disk) := response.body.writeTo world.disk fault
      (.ok (.download response.contentDisposition bytes outcome),
        { world with db := db, disk := disk })

/-- The outcome of an operation, and what it has changed. -/
def perform (environment : Environment) (world : World) :
    Operation → Except Exception Reply × World
  | .dataLoader lostKeys =>
      let (outcome, db) := MegaVncApplication.dataLoader environment.encodePassword
        (world.db.skipKeys lostKeys)
      (outcome.map fun _ => .done, world.withDb db)
  | .connectSettingRepeater remotePcDto => transact world do
      let (repeaterId, db) ← RemotePcApiService.connectSettingRepeater world.db remotePcDto
      pure (.repeaterId repeaterId, db)
  | .getRemotePcStatus repeaterId => transact world do
      let remotePc ← RemotePcApiService.findRemotePcByRepeaterId world.db repeaterId
      pure (.status remotePc.status.toValue, world.db)
  | .disAssignRemotePc reconnectId => transact world do
      let db ← RemotePcApiService.disAssignRemotePcByRepeaterId world.db reconnectId
      pure (.done, db)
  | .registerRemotePcApi registerRemotePcDto => transact world do
      let db ← RemotePcApiService.registerRemotePc world.db registerRemotePcDto
      pure (.done, db)
  | .registerRemotePcWeb registerRemotePcDto => transact world do
      let db ← RemotePcService.registerRemotePc world.db registerRemotePcDto
      pure (.done, db)
  | .processMessage now message =>
      let (outcome, world) := MessageService.processMessage world now message
      (outcome.map fun _ => .done, world)
  | .showRemotePcs user selectedGroupName => transact world do
      let reply ← showRemotePcs world.db user selectedGroupName
      pure (reply, world.db)
  | .showViewer user id => transact world do
      let reply ← showViewer world.db user id
      pure (reply, world.db)
  | .deleteRemotePc user id => transact world do
      let (groupName, db) ← RemotePcService.deletePc world.db user id
      pure (.deleted groupName, db)
  | .createGroup groupName => transact world do
      let db ← AdminGroupService.register world.db groupName
      pure (.done, db)
  | .deleteGroup groupId => transact world do
      let db ← AdminGroupService.deleteGroup world.db groupId
      pure (.done, db)
  | .createUser user => transact world do
      let db ← AdminUserService.register environment.encodePassword world.db user
      pure (.done, db)
  | .deleteUser memberId => transact world do
      let db ← AdminUserService.deleteUser world.db memberId
      pure (.done, db)
  | .assignGroup assignGroupDto => transact world do
      let db ← AdminAssignService.assignGroup world.db assignGroupDto
      pure (.done, db)
  | .disassignGroup memberId groupId => transact world do
      let db ← AdminAssignService.disassignGroup world.db memberId groupId
      pure (.done, db)
  | .processChangePassword changePassword user => transact world do
      let (view, db) ← ChangePasswordController.processChangePassword environment world.db
        changePassword user
      pure (.view view, db)
  | .uploadFile now file repeaterId user fault =>
      let (outcome, world) :=
        FileService.uploadFile environment world now file repeaterId user fault
      (outcome.map .fileSeq, world)
  | .showFiles reconnectId => (.ok (showFiles world.db reconnectId), world)
  | .listFiles => (.ok (.files (FileService.findAllByReconnectId world.db none)), world)
  | .downloadFile fileSeq fault => downloadFile environment world fileSeq fault
  | .deleteDistributionFile fileSeq deleteFails =>
      match FileService.deleteDistributionFile environment world fileSeq deleteFails with
      | .ok world => (.ok .done, world)
      | .error exception => (.error exception, world)
  | .cleanupOldFiles daysAgo cannotDelete =>
      let (outcome, world) := FileService.cleanupOldFiles environment world daysAgo fun path =>
        path ∈ cannotDelete
      (outcome.map fun _ => .done, world)
  | .deleteOldLogs cutoff => (.ok .done, world.withDb (world.db.deleteLogsOlderThan cutoff))

/-- The world after an operation. -/
def step (environment : Environment) (world : World) (operation : Operation) : World :=
  (perform environment world operation).2

/-- The first start, on an empty database. -/
def initial (environment : Environment) : World :=
  step environment .empty (.dataLoader 0)

/-- The states after the first start and any operations. -/
def Reachable (environment : Environment) (world : World) : Prop :=
  Transition.Reachable (step environment) (initial environment) world

/-! ### Requests and lines about the base PC -/

/-- The base PC after the first start. -/
def freshBasePc : RemotePc :=
  .createRemotePc 100 "BASE" "1234" 1 1

/-- The call of an app for the base PC. -/
def baseConnect (reconnectId : String) : RequestRemotePcDto where
  groupName := some "BaseGroup"
  pcName := some "BASE"
  accessPassword := some "1234"
  reconnectId := some reconnectId

/-- SERVER_CONNECT of the base PC at the start of 2024. -/
def baseServerConnect : Operation :=
  .processMessage 1704067200000
    "EvMsgVer:1,EvNum:2,Time:1704067200,Pid:4321,TblInd:0,Code:100,Mode:2,Ip:192.168.0.10"

/-! ### Transactions -/

/-- A transaction that succeeds changes the database alone. -/
theorem transact_eq_ok {world next : World} {transaction : Except Exception (Reply × Database)}
    {reply : Reply} : transact world transaction = (.ok reply, next) ↔
      ∃ db, transaction = .ok (reply, db) ∧ world.withDb db = next := by
  rcases transaction with exception | ⟨reply', db⟩
  · simp only [transact, Prod.mk.injEq, reduceCtorEq, false_and, exists_false]
  · simp only [transact, Prod.mk.injEq, Except.ok.injEq]
    constructor
    · rintro ⟨rfl, rfl⟩
      exact ⟨db, ⟨rfl, rfl⟩, rfl⟩
    · rintro ⟨db', ⟨rfl, rfl⟩, rfl⟩
      exact ⟨rfl, rfl⟩

/-- The database after a transaction is the one it committed or the old one. -/
theorem transact_cases (world : World) (transaction : Except Exception (Reply × Database)) :
    (∃ exception, transaction = .error exception ∧
        transact world transaction = (.error exception, world)) ∨
      ∃ reply db, transaction = .ok (reply, db) ∧
        transact world transaction = (.ok reply, world.withDb db) := by
  rcases transaction with exception | ⟨reply, db⟩
  · exact Or.inl ⟨exception, rfl, rfl⟩
  · exact Or.inr ⟨reply, db, rfl, rfl⟩

/-- What holds of the old database and of every one that is committed holds after
a transaction. -/
theorem transact_holds (property : Database → Prop) {world : World}
    {transaction : Except Exception (Reply × Database)} (before : property world.db)
    (after : ∀ reply db, transaction = .ok (reply, db) → property db) :
    property (transact world transaction).2.db := by
  rcases transact_cases world transaction with ⟨exception, -, failed⟩ | ⟨reply, db, ok, committed⟩
  · rw [failed]
    exact before
  · rw [committed]
    exact after reply db ok

/-- What the commits of a transaction leave as it is, the transaction does. -/
theorem transact_keeps {Part : Type} (part : Database → Part) {world : World}
    {transaction : Except Exception (Reply × Database)}
    (keeps : ∀ reply db, transaction = .ok (reply, db) → part db = part world.db) :
    part (transact world transaction).2.db = part world.db :=
  transact_holds (fun db => part db = part world.db) rfl keeps

/-- A service that returns the database and no reply. -/
theorem done_eq_ok {service : Except Exception Database} {reply : Reply} {db : Database} :
    (do
      let next ← service
      pure (Reply.done, next)) = .ok (reply, db) ↔ service = .ok db ∧ reply = .done := by
  simp only [bind_eq_ok, pure_eq_ok, Prod.mk.injEq]
  constructor
  · rintro ⟨_, returned, rfl, rfl⟩
    exact ⟨returned, rfl⟩
  · rintro ⟨returned, rfl⟩
    exact ⟨db, returned, rfl, rfl⟩

/-- A service that returns the database with a value for the reply. -/
theorem answered_eq_ok {Value : Type} (answer : Value → Reply)
    {service : Except Exception (Value × Database)} {reply : Reply} {db : Database} :
    (service >>= fun result => pure (answer result.1, result.2)) = .ok (reply, db) ↔
      ∃ value, service = .ok (value, db) ∧ reply = answer value := by
  simp only [bind_eq_ok, pure_eq_ok, Prod.mk.injEq]
  constructor
  · rintro ⟨⟨value, next⟩, returned, rfl, rfl⟩
    exact ⟨value, returned, rfl⟩
  · rintro ⟨value, returned, rfl⟩
    exact ⟨(value, db), returned, rfl, rfl⟩

end Application

end MegaVnc
