import MegaVnc.System.AdminRights
import MegaVnc.System.AssignmentLists
import MegaVnc.Web.GlobalExceptionHandler

/-! # The errors of the controllers

A call of a controller that throws is rolled back, and the handler of its
exception queries the services again. What it queries depends on the page the
exception is shown on; each call has one such page.
-/

namespace MegaVnc

open Relational Fallible Transition
open Application (perform transact step initial)

/-- Every operation but those of the repeater, of the schedule and of the start.
No controller calls the registration of `RemotePcService`. -/
def Operation.byController : Operation → Bool
  | .dataLoader _ | .registerRemotePcWeb _ | .processMessage _ _ | .cleanupOldFiles _ _
  | .deleteOldLogs _ => false
  | _ => true

/-- The user an operation acts for. -/
def Operation.user : Operation → Option User
  | .showRemotePcs user _ | .showViewer user _ | .deleteRemotePc user _
  | .processChangePassword _ user | .uploadFile _ _ _ user _ => some user
  | _ => none

/-- What a controller asks of the services: an operation, or the page of a
member's groups. The queries of the other pages throw no business exception. -/
inductive ServiceCall where
  | ofOperation (operation : Operation)
  | showAssignGroups (memberId : Long)
deriving DecidableEq

namespace ServiceCall

/-- The page of the assignments is always asked for through its controller. -/
def byController : ServiceCall → Bool
  | .ofOperation operation => operation.byController
  | .showAssignGroups _ => true

/-- The principal on whose behalf the call is made. -/
def user : ServiceCall → Option User
  | .ofOperation operation => operation.user
  | .showAssignGroups _ => none

/-- The outcome of a call, and the state it leaves. -/
def run (environment : Environment) (world : World) : ServiceCall → Except Exception Unit × World
  | .ofOperation operation =>
      let (outcome, world) := perform environment world operation
      (outcome.map fun _ => (), world)
  | .showAssignGroups memberId =>
      ((AdminAssignController.showAssignGroups world.db memberId).map fun _ => (), world)

/-- The page the errors of a call are shown on. -/
def errorPage : ServiceCall → Option ErrorPage
  | .ofOperation (.showRemotePcs _ _) | .ofOperation (.showViewer _ _)
  | .ofOperation (.deleteRemotePc _ _) => some .remotePcs
  | .ofOperation (.createUser _) | .ofOperation (.deleteUser _) => some .users
  | .ofOperation (.createGroup _) | .ofOperation (.deleteGroup _) => some .groups
  | .ofOperation (.assignGroup assignGroupDto) => some (.assign assignGroupDto.selectedUserId)
  | .ofOperation (.disassignGroup memberId _) | .showAssignGroups memberId =>
      some (.assign (some memberId))
  | .ofOperation (.deleteDistributionFile _ _) => some .fileList
  | .ofOperation _ => none

end ServiceCall

/-- A call of a controller while it serves a request of the principal, for whom
it acts. -/
structure ControllerCall where
  principal : Option User
  call : ServiceCall
  byController : call.byController
  own : ∀ user ∈ call.user, principal = some user

/-- An exception without a page, or shown on the given one. -/
def Exception.ShownOn (page : Option ErrorPage) (exception : Exception) : Prop :=
  exception.errorPage = none ∨ exception.errorPage = page

/-! ### What the services throw -/

section Thrown

variable {environment : Environment} {world : World} {db : Database} {user : User}
  {page : Option ErrorPage} {id : Long}

theorem throws_store {Written : Type} {written : Option Written} {place : Written → Database} :
    Throws (Exception.ShownOn page) (Database.store written place) := by
  simp only [Database.store, throws_bind, throws_orElseThrow, throws_pure, Exception.ShownOn,
    Exception.errorPage, true_or, implies_true, and_self]

/-- A row that is refused at the flush has no page of its own. -/
theorem throws_flush {entity : Managed} : Throws (Exception.ShownOn page) (db.flush entity) := by
  unfold Database.flush
  split
  · exact throws_ok db
  · exact throws_store

/-- A query for one row that finds several has no page of its own. -/
theorem throws_findByReconnectId {reconnectId : String} :
    Throws (Exception.ShownOn page) (db.findByReconnectId reconnectId) := by
  unfold Database.findByReconnectId
  split
  · exact throws_ok none
  · exact throws_ok _
  · exact throws_error.mpr (Or.inl rfl)

/-- The query for the administrator has no page of its own. -/
theorem throws_findByRole {role : Role} :
    Throws (Exception.ShownOn page) (db.findByRole role) := by
  unfold Database.findByRole
  split
  · exact throws_ok none
  · exact throws_ok _
  · exact throws_error.mpr (Or.inl rfl)

/-- A refused connect has no page: the app is told. -/
theorem throws_connectSettingRepeater {remotePcDto : RequestRemotePcDto} :
    Throws (Exception.ShownOn page)
      (RemotePcApiService.connectSettingRepeater db remotePcDto) := by
  simp only [RemotePcApiService.connectSettingRepeater, RemotePcApiService.connectTransaction,
    throws_bind, throws_orElseThrow, throws_throwIf, throws_pure, throws_flush, Exception.ShownOn,
    Exception.api, Exception.errorPage, true_or, implies_true, and_self]

/-- A refused release has no page. -/
theorem throws_disAssignRemotePc {reconnectId : String} :
    Throws (Exception.ShownOn page)
      (RemotePcApiService.disAssignRemotePcByRepeaterId db reconnectId) := by
  simp only [RemotePcApiService.disAssignRemotePcByRepeaterId,
    RemotePcApiService.disAssignTransaction, throws_bind, throws_findByReconnectId,
    throws_orElseThrow, throws_pure, throws_flush, Exception.ShownOn, Exception.api,
    Exception.errorPage, true_or, implies_true, and_self]

/-- A refused registration has no page. -/
theorem throws_registerRemotePc {registerRemotePcDto : RegisterRemotePcDto} :
    Throws (Exception.ShownOn page)
      (RemotePcApiService.registerRemotePc db registerRemotePcDto) := by
  simp only [RemotePcApiService.registerRemotePc, RemotePcApiService.registerRemotePcWith,
    Database.insertRemotePc, throws_bind, throws_orElseThrow, throws_throwIf, throws_store,
    Exception.ShownOn, Exception.api, Exception.errorPage, true_or, implies_true, and_self]

/-- A repeater id that no PC has is refused without a page. -/
theorem throws_findRemotePcByRepeaterId {repeaterId : Long} :
    Throws (Exception.ShownOn page)
      (RemotePcApiService.findRemotePcByRepeaterId db repeaterId) := by
  simp only [RemotePcApiService.findRemotePcByRepeaterId, throws_orElseThrow, Exception.ShownOn,
    Exception.api, Exception.errorPage, true_or, implies_true]

/-- A principal without a row has no page of its own. -/
theorem throws_findGroupByMember :
    Throws (Exception.ShownOn page) (RemotePcService.findGroupByMember db user) := by
  simp only [RemotePcService.findGroupByMember, RemotePcService.memberNotFound, throws_bind,
    throws_orElseThrow, throws_pure, Exception.ShownOn, Exception.errorPage, true_or,
    implies_true, and_self]

/-- A group that is not the member's is shown on the page of the PCs. -/
theorem throws_findByGroupName {groupName : String} :
    Throws (Exception.ShownOn (some .remotePcs))
      (RemotePcService.findByGroupName db groupName user) := by
  simp only [RemotePcService.findByGroupName, RemotePcService.memberNotFound, throws_bind,
    throws_orElseThrow, throws_throwIf, throws_pure, Exception.ShownOn, Exception.remotePc,
    Exception.errorPage, true_or, or_true, implies_true, and_self]

/-- The page of the PCs is the one to go back to. -/
theorem throws_showRemotePcs {selectedGroupName : Option String} :
    Throws (Exception.ShownOn (some .remotePcs))
      (Application.showRemotePcs db user selectedGroupName) := by
  simp only [Application.showRemotePcs, throws_bind, throws_findGroupByMember, true_and]
  intro groups found
  cases selectedGroupName with
  | none => exact throws_pure _
  | some groupName =>
      by_cases all : groupName = RemotePcService.allGroup
      · simp only [all, ↓reduceIte, throws_bind, throws_pure, implies_true, and_self]
      · simp only [all, ↓reduceIte, throws_bind, throws_findByGroupName, throws_pure, implies_true,
          and_self]

/-- A PC that cannot be viewed leads back to the page of the PCs. -/
theorem throws_showViewer :
    Throws (Exception.ShownOn (some .remotePcs)) (Application.showViewer db user id) := by
  simp only [Application.showViewer, RemotePcService.findById, RemotePcService.memberNotFound,
    throws_bind, throws_orElseThrow, throws_throwIf, throws_pure, Exception.ShownOn,
    Exception.remotePc, Exception.errorPage, true_or, or_true, implies_true, and_self]

/-- A PC that cannot be deleted leads back to the page of the PCs. -/
theorem throws_deletePc :
    Throws (Exception.ShownOn (some .remotePcs)) (RemotePcService.deletePc db user id) := by
  simp only [RemotePcService.deletePc, RemotePcService.memberNotFound, throws_bind,
    throws_orElseThrow, throws_throwIf, throws_pure, Exception.ShownOn, Exception.remotePc,
    Exception.errorPage, true_or, or_true, implies_true, and_self]

/-- A refused group is shown on the page of the groups. -/
theorem throws_createGroup {groupName : Option String} :
    Throws (Exception.ShownOn (some .groups)) (AdminGroupService.register db groupName) := by
  simp only [AdminGroupService.register, Database.saveGroup, Database.saveMemberGroup, throws_bind,
    throws_orElseThrow, throws_throwIf, throws_findByRole, throws_store, Exception.ShownOn,
    Exception.adminGroup, Exception.errorPage, true_or, or_true, implies_true, and_self]

/-- A group that stays is shown on the page of the groups. -/
theorem throws_deleteGroup :
    Throws (Exception.ShownOn (some .groups)) (AdminGroupService.deleteGroup db id) := by
  simp only [AdminGroupService.deleteGroup, throws_bind, throws_orElseThrow, throws_throwIf,
    throws_pure, Exception.ShownOn, Exception.adminGroup, Exception.errorPage, or_true,
    implies_true, and_self]

/-- A refused user is shown on the page of the users. -/
theorem throws_createUser {encode : String → String} {dto : UserRegisterDto} :
    Throws (Exception.ShownOn (some .users)) (AdminUserService.register encode db dto) := by
  simp only [AdminUserService.register, Database.saveMember, throws_bind, throws_orElseThrow,
    throws_throwIf, throws_store, Exception.ShownOn, Exception.adminUser, Exception.errorPage,
    true_or, or_true, implies_true, and_self]

/-- A user who stays is shown on the page of the users. -/
theorem throws_deleteUser :
    Throws (Exception.ShownOn (some .users)) (AdminUserService.deleteUser db id) := by
  simp only [AdminUserService.deleteUser, throws_bind, throws_orElseThrow, throws_throwIf,
    throws_pure, Exception.ShownOn, Exception.adminUser, Exception.errorPage, or_true,
    implies_true, and_self]

/-- An error of an assignment is about the selected user. -/
theorem throws_assignGroup {assignGroupDto : AssignGroupDto} :
    Throws (Exception.ShownOn (some (.assign assignGroupDto.selectedUserId)))
      (AdminAssignService.assignGroup db assignGroupDto) := by
  cases selected : assignGroupDto.selectedUserId with
  | none =>
      simp only [AdminAssignService.assignGroup, selected, orElseThrow, error_bind, throws_error,
        Exception.ShownOn, Exception.errorPage, true_or]
  | some userId =>
      simp only [AdminAssignService.assignGroup, selected, Database.saveMemberGroup, throws_bind,
        throws_orElseThrow, orElseThrow_eq_ok, throws_throwIf, throws_store, Exception.ShownOn,
        Exception.adminAssign, Exception.errorPage, Option.some.injEq, forall_eq', true_or, or_true,
        implies_true, and_self, reduceCtorEq]

/-- A refused disassignment is shown on the page of that user. -/
theorem throws_disassignGroup {groupId : Long} :
    Throws (Exception.ShownOn (some (.assign (some id))))
      (AdminAssignService.disassignGroup db id groupId) := by
  simp only [AdminAssignService.disassignGroup, throws_bind, throws_orElseThrow, throws_throwIf,
    throws_pure, Exception.ShownOn, Exception.adminAssign, Exception.errorPage, or_true,
    implies_true, and_self]

/-- A user who is not there is told on the page of that user. -/
theorem throws_showAssignGroups :
    Throws (Exception.ShownOn (some (.assign (some id))))
      (AdminAssignController.showAssignGroups db id) := by
  simp only [AdminAssignController.showAssignGroups, AdminAssignService.findByUserId,
    AdminAssignService.listAssignedGroups, AdminAssignService.listUnassignedGroups, throws_bind,
    throws_orElseThrow, throws_pure, Exception.ShownOn, Exception.adminAssign, Exception.errorPage,
    or_true, implies_true, and_self]

/-- A refused change of the password has no page of its own. -/
theorem throws_processChangePassword {changePassword : ChangePasswordDto} :
    Throws (Exception.ShownOn page) (ChangePasswordController.processChangePassword environment db
      changePassword user) := by
  simp only [ChangePasswordController.processChangePassword, throws_bind, throws_orElseThrow,
    Exception.ShownOn, Exception.errorPage, true_or, implies_true, true_and]
  intro password _ newPassword _
  split
  · simp only [UserService.changePassword, UserService.usernameNotFound, Database.updateMember,
      throws_bind, throws_orElseThrow, throws_store, throws_pure, Exception.ShownOn,
      Exception.errorPage, true_or, implies_true, and_self]
  · exact throws_pure _

/-- A name without its parts is refused. -/
theorem throws_encryptedFileName {fileName : String} :
    Throws (Exception.ShownOn page) (FileService.encryptedFileName environment fileName) := by
  unfold FileService.encryptedFileName
  split
  · exact throws_ok _
  · exact throws_error.mpr (Or.inl rfl)

/-- A distribution file that stays is shown on the page of the files. -/
theorem throws_deleteDistributionFile {deleteFails : Option String} :
    Throws (Exception.ShownOn (some .fileList))
      (FileService.deleteDistributionFile environment world id deleteFails) := by
  simp only [FileService.deleteDistributionFile, throws_bind, throws_orElseThrow, throws_throwIf,
    throws_encryptedFileName, throws_pure, Exception.ShownOn, Exception.fileDelete,
    Exception.errorPage, or_true, implies_true, and_self]

/-- An upload to a PC that is not there is refused. -/
theorem throws_uploadReconnectId {repeaterId : Option Long} :
    Throws (Exception.ShownOn page) (FileService.uploadReconnectId db repeaterId user) := by
  cases repeaterId with
  | some repeaterId =>
      simp only [FileService.uploadReconnectId, throws_bind, throws_orElseThrow,
        Exception.ShownOn, Exception.api, Exception.errorPage, true_or, implies_true, and_self]
  | none =>
      unfold FileService.uploadReconnectId
      by_cases admin : user.isAdmin
      · simp only [admin, ↓reduceIte, throws_ok]
      · simp only [admin, Bool.false_eq_true, ↓reduceIte, throws_error, Exception.ShownOn,
          Exception.api, Exception.errorPage, true_or]

/-- The download of a file that is not there is refused. -/
theorem throws_downloadFile :
    Throws (Exception.ShownOn page) (FileService.downloadFile environment db id) := by
  simp only [FileService.downloadFile, throws_bind, throws_orElseThrow, throws_encryptedFileName,
    throws_pure, Exception.ShownOn, Exception.fileDownload, Exception.errorPage, true_or,
    implies_true, and_self]

/-- A directory that cannot be made is an error of the upload. -/
theorem throws_ensureDirectory {disk : Disk} {fault : Option UploadFault} :
    Throws (Exception.ShownOn page) (FileService.ensureDirectory disk fault) := by
  unfold FileService.ensureDirectory
  split
  · exact throws_ok disk
  · split
    · exact throws_error.mpr (Or.inl rfl)
    · exact throws_ok _

/-- A copy that fails on the way is an error of the upload. -/
theorem throws_copyToDisk {disk : Disk} {filePath : String} {bytes : List UInt8}
    {fault : Option UploadFault} :
    Throws (Exception.ShownOn page)
      (FileService.copyToDisk environment disk filePath bytes fault).1 := by
  unfold FileService.copyToDisk
  dsimp only
  split
  · exact throws_error.mpr (Or.inl rfl)
  · exact throws_error.mpr (Or.inl rfl)
  · exact throws_error.mpr (Or.inl rfl)
  · exact throws_ok ()

/-! ### What the calls throw -/

/-- An exception is shown on the page, and nothing of the database is changed. -/
def Refuses {Value : Type} (page : Option ErrorPage) (world : World)
    (answer : Except Exception Value × World) : Prop :=
  ∀ exception next, answer = (.error exception, next) →
    exception.ShownOn page ∧ next.db = world.db

theorem refuses_ok {Value : Type} {value : Value} {next : World} :
    Refuses page world (.ok value, next) := by
  intro exception next same
  cases same

/-- A call that fails is refused when its error is shown and nothing was written. -/
theorem refuses_error {Value : Type} {exception : Exception} {next : World} :
    Refuses page world ((.error exception, next) : Except Exception Value × World) ↔
      exception.ShownOn page ∧ next.db = world.db := by
  constructor
  · intro refused
    exact refused exception next rfl
  · rintro shown _ _ ⟨rfl, rfl⟩
    exact shown

/-- A transaction that throws is rolled back. -/
theorem refuses_transact {transaction : Except Exception (Reply × Database)} :
    Refuses page world (transact world transaction) ↔
      Throws (Exception.ShownOn page) transaction := by
  rcases transaction with exception | ⟨reply, db⟩
  · simp only [transact, refuses_error, throws_error, and_true]
  · simp only [transact, refuses_ok, throws_ok]

/-- A call of a service that does nothing more than answer. -/
theorem refuses_call {Value : Type} {service : Except Exception Value}
    {answer : Value → Except Exception (Reply × Database)}
    (throws : Throws (Exception.ShownOn page) service)
    (answers : ∀ value, ∃ reply, answer value = .ok reply) :
    Refuses page world (transact world (service >>= answer)) := by
  refine refuses_transact.mpr (throws_bind.mpr ⟨throws, fun value _ => ?_⟩)
  obtain ⟨reply, answered⟩ := answers value
  rw [answered]
  exact throws_ok reply

/-- What the answer is made into does not matter. -/
theorem refuses_map {Value Other : Type} {answer : Except Exception Value × World}
    {result : Value → Other} :
    Refuses page world (answer.1.map result, answer.2) ↔ Refuses page world answer := by
  rcases answer with ⟨exception | value, next⟩
  · simp only [Except.map, refuses_error]
  · simp only [Except.map, refuses_ok]

/-- A computation that writes nothing is refused wherever its errors are shown. -/
theorem refuses_of_throws {Value : Type} {computation : Except Exception Value}
    (throws : Throws (Exception.ShownOn page) computation) :
    Refuses page world (computation, world) := by
  rintro exception next ⟨⟩
  exact ⟨throws exception rfl, rfl⟩

/-- An upload that fails leaves the tables as they were. -/
theorem refuses_uploadFile {now : Date} {file : MultipartFile} {repeaterId : Option Long}
    {fault : Option UploadFault} :
    Refuses page world
      (FileService.uploadFile environment world now file repeaterId user fault) := by
  unfold FileService.uploadFile
  split
  · next exception refused =>
      exact refuses_error.mpr ⟨throws_uploadReconnectId exception refused, rfl⟩
  · split
    · next exception refused =>
        exact refuses_error.mpr ⟨throws_ensureDirectory exception refused, rfl⟩
    · dsimp only
      split
      · next exception refused =>
          exact refuses_error.mpr ⟨throws_encryptedFileName exception refused, rfl⟩
      · split
        · next exception refused => exact refuses_error.mpr ⟨throws_store exception refused, rfl⟩
        · split
          · next exception disk refused =>
              exact refuses_error.mpr
                ⟨throws_copyToDisk exception (congrArg Prod.fst refused), rfl⟩
          · exact refuses_ok

/-- A download that fails leaves the tables as they were. -/
theorem refuses_downloadFile {fault : Option StreamFault} :
    Refuses page world (Application.downloadFile environment world id fault) := by
  unfold Application.downloadFile
  split
  · next exception refused => exact refuses_error.mpr ⟨throws_downloadFile exception refused, rfl⟩
  · exact refuses_ok

/-- An operation of a controller that throws leaves the database as it is, and its
errors have one page. -/
theorem refuses_perform {operation : Operation} (byController : operation.byController) :
    Refuses (ServiceCall.ofOperation operation).errorPage world
      (perform environment world operation) := by
  cases operation with
  | dataLoader lostKeys | registerRemotePcWeb registerRemotePcDto | processMessage now message
  | cleanupOldFiles daysAgo cannotDelete | deleteOldLogs cutoff => cases byController
  | connectSettingRepeater remotePcDto =>
      exact refuses_call throws_connectSettingRepeater fun _ => ⟨_, rfl⟩
  | getRemotePcStatus repeaterId =>
      exact refuses_call throws_findRemotePcByRepeaterId fun _ => ⟨_, rfl⟩
  | disAssignRemotePc reconnectId =>
      exact refuses_call throws_disAssignRemotePc fun _ => ⟨_, rfl⟩
  | registerRemotePcApi registerRemotePcDto =>
      exact refuses_call throws_registerRemotePc fun _ => ⟨_, rfl⟩
  | showRemotePcs user selectedGroupName =>
      exact refuses_call throws_showRemotePcs fun _ => ⟨_, rfl⟩
  | showViewer user id => exact refuses_call throws_showViewer fun _ => ⟨_, rfl⟩
  | deleteRemotePc user id => exact refuses_call throws_deletePc fun _ => ⟨_, rfl⟩
  | createGroup groupName => exact refuses_call throws_createGroup fun _ => ⟨_, rfl⟩
  | deleteGroup groupId => exact refuses_call throws_deleteGroup fun _ => ⟨_, rfl⟩
  | createUser user => exact refuses_call throws_createUser fun _ => ⟨_, rfl⟩
  | deleteUser memberId => exact refuses_call throws_deleteUser fun _ => ⟨_, rfl⟩
  | assignGroup assignGroupDto => exact refuses_call throws_assignGroup fun _ => ⟨_, rfl⟩
  | disassignGroup memberId groupId => exact refuses_call throws_disassignGroup fun _ => ⟨_, rfl⟩
  | processChangePassword changePassword user =>
      exact refuses_call throws_processChangePassword fun _ => ⟨_, rfl⟩
  | uploadFile now file repeaterId user fault => exact refuses_map.mpr refuses_uploadFile
  | showFiles reconnectId | listFiles => exact refuses_ok
  | downloadFile fileSeq fault => exact refuses_downloadFile
  | deleteDistributionFile fileSeq deleteFails =>
      simp only [perform]
      split
      · exact refuses_ok
      · next exception refused =>
          exact refuses_error.mpr ⟨throws_deleteDistributionFile exception refused, rfl⟩

/-- Every call of a controller either succeeds or is refused on its page. -/
theorem ControllerCall.refuses (request : ControllerCall) :
    Refuses request.call.errorPage world (request.call.run environment world) := by
  obtain ⟨principal, call, byController, own⟩ := request
  cases call with
  | ofOperation operation => exact refuses_map.mpr (refuses_perform byController)
  | showAssignGroups memberId =>
      exact refuses_of_throws (throws_map.mpr throws_showAssignGroups)

end Thrown

/-! ### Requests -/

section Requests

variable {conversion : Conversion} {exchange : Exchange} {call : ServiceCall}

/-- The service call a handler makes with the texts of its path. -/
def Handler.serviceCall (conversion : Conversion) (request : HttpRequest)
    (circumstances : Circumstances) (texts : List String) : Handler → Option ServiceCall
  | .showAssignGroups => do
      let memberId ← texts[0]?.bind conversion.toLong
      pure (.showAssignGroups memberId)
  | handler => (handler.operation conversion request circumstances texts).map .ofOperation

/-- What an admitted request makes its controller ask of the services. -/
def Exchange.serviceCall (conversion : Conversion) (exchange : Exchange) : Option ServiceCall :=
  if SecurityConfig.admits exchange.request then do
    let (handler, texts) ← dispatch exchange.request
    handler.serviceCall conversion exchange.request exchange.circumstances texts
  else none

/-- A handler makes the calls of its controller, on behalf of the user who sent the request. -/
theorem Handler.operation_own {request : HttpRequest} {circumstances : Circumstances}
    {handler : Handler} {texts : List String} {operation : Operation}
    (leads : handler.operation conversion request circumstances texts = some operation) :
    operation.byController ∧ ∀ user ∈ operation.user, request.user = some user := by
  cases handler with
  | home | downloadServer | findAllGroups | management | upload | showGroups | showUsers
  | showAssignGroups | logs | connectLog | errorLog | showChangePassword | showLogin => cases leads
  | _ =>
      simp only [Handler.operation, Option.bind_eq_bind, Option.bind_eq_some_iff, Option.pure_def,
        Option.some.injEq] at leads
      grind [Operation.byController, Operation.user]

/-- A service call is one of its controller, on behalf of the user who sent the request. -/
theorem Handler.serviceCall_own {request : HttpRequest} {circumstances : Circumstances}
    {handler : Handler} {texts : List String}
    (leads : handler.serviceCall conversion request circumstances texts = some call) :
    call.byController ∧ ∀ user ∈ call.user, request.user = some user := by
  by_cases page : handler = .showAssignGroups
  · subst page
    obtain ⟨memberId, -, ⟨⟩⟩ := Option.bind_eq_some_iff.mp leads
    exact ⟨rfl, fun user absent => by cases absent⟩
  · have asked : (handler.operation conversion request circumstances texts).map .ofOperation =
        some call := by
      cases handler <;> first | exact leads | exact (page rfl).elim
    obtain ⟨operation, operates, rfl⟩ := Option.map_eq_some_iff.mp asked
    exact Handler.operation_own operates

/-- A request leads to a call of a controller for its principal. -/
theorem Exchange.exists_controllerCall (leads : exchange.serviceCall conversion = some call) :
    ∃ request : ControllerCall, request.principal = exchange.request.user ∧
      request.call = call := by
  unfold Exchange.serviceCall at leads
  split at leads
  · obtain ⟨⟨handler, texts⟩, -, leads⟩ := Option.bind_eq_some_iff.mp leads
    obtain ⟨byController, own⟩ := Handler.serviceCall_own leads
    exact ⟨⟨exchange.request.user, call, byController, own⟩, rfl, rfl⟩
  · cases leads

end Requests

/-! ### The pages shown -/

/-- The members the page of a call's errors is about are stored. -/
def ControllerCall.Known (db : Database) (request : ControllerCall) : Prop :=
  ∀ page ∈ request.call.errorPage, page.Known db request.principal

instance (db : Database) (request : ControllerCall) : Decidable (request.Known db) :=
  inferInstanceAs (Decidable (∀ page ∈ request.call.errorPage, page.Known db request.principal))

/-- An error of a controller's call is shown on its page exactly when the member
the page is about is stored: for the calls about PCs, one with the session's
username; for the assignments, the selected one. -/
theorem ControllerCall.error_shown_iff {environment : Environment} {world next : World}
    {saveErrorLogToDB : Exception → Except Exception Unit} {exception : Exception}
    {page : ErrorPage} (request : ControllerCall)
    (thrown : request.call.run environment world = (.error exception, next))
    (business : exception.errorPage = some page) :
    (∃ model, GlobalExceptionHandler.handle saveErrorLogToDB next.db request.principal exception =
        .ok (.view page.view model)) ↔ request.Known world.db := by
  obtain ⟨onPage, kept⟩ := request.refuses exception next thrown
  have paged : request.call.errorPage = some page := by
    rcases onPage with unshown | same
    · rw [unshown] at business
      cases business
    · exact same.symm.trans business
  rw [GlobalExceptionHandler.handle_shows_iff business, kept, ControllerCall.Known, paged]
  simp only [Option.mem_def, Option.some.injEq, forall_eq']

/-- In the session of a deleted user no PC is found, and the page that says so
cannot be shown. -/
example :
    let db := (run (step .dev) (initial .dev) (joinLab ++ [.deleteUser 2])).db
    Application.showViewer db kim 7 = .error (.remotePc .pcNotFound "") ∧
      ¬ ErrorPage.remotePcs.Known db (some kim) := by
  decide +kernel

/-- The administrator assigns the user to the laboratory again. -/
def joinAgain : ControllerCall where
  principal := some adminUser
  call := .ofOperation (.assignGroup { selectedGroupId := some 2, selectedUserId := some 2 })
  byController := rfl
  own _ absent := by cases absent

/-- Assigning a group twice is shown on the page of that user. -/
theorem joinAgain_shown :
    ∃ model, GlobalExceptionHandler.handle (fun _ => .ok ())
      (run (step .dev) (initial .dev) joinLab).db (some adminUser)
      (.adminAssign .alreadyAssignedGroup (some 2) "") =
        .ok (.view "admin/userManagement/assign" model) :=
  (@ControllerCall.error_shown_iff .dev (run (step .dev) (initial .dev) joinLab) _ _
    (.adminAssign .alreadyAssignedGroup (some 2) "") _ joinAgain
    (Prod.ext (by decide +kernel) rfl) rfl).mpr (by decide +kernel)

/-- The administrator opens the page of a member that does not exist. -/
def openNinetyNine : Exchange where
  request := { method := .get, path := ["admin", "assign", "99"], user := some adminUser,
               parameters := [], body := none, file := none }
  circumstances := calm

/-- The handler looks the missing member up as the page did. -/
theorem openNinetyNine_unshown :
    ¬ ∀ (environment : Environment) (world : World), Application.Reachable environment world →
      ∀ (saveErrorLogToDB : Exception → Except Exception Unit) (request : ControllerCall)
        (exception : Exception) (page : ErrorPage) (next : World),
        request.call.run environment world = (.error exception, next) →
        exception.errorPage = some page →
        ∃ model, GlobalExceptionHandler.handle saveErrorLogToDB next.db request.principal
          exception = .ok (.view page.view model) := by
  intro shown
  obtain ⟨request, -, asked⟩ := @Exchange.exists_controllerCall decimals openNinetyNine
    (.showAssignGroups 99) (by decide +kernel)
  have thrown : request.call.run .dev (initial .dev) =
      (.error (.adminAssign .userNotFound (some 99) ""), initial .dev) := by
    rw [asked]
    exact Prod.ext (by decide +kernel) rfl
  obtain ⟨model, answered⟩ := shown .dev (initial .dev) (Transition.Reachable.refl _)
    (fun _ => .ok ()) request _ (.assign (some 99)) _ thrown rfl
  obtain ⟨member, present, numbered⟩ :=
    (@GlobalExceptionHandler.handle_shows_iff _ _ _ _ (.assign (some 99)) rfl).mp ⟨model, answered⟩
  have absent : ∀ member ∈ (initial .dev).db.member.rows, some 99 ≠ some member.id := by
    decide +kernel
  exact absent member present numbered

end MegaVnc
