import MegaVnc.FileTransfer.FileService
import MegaVnc.Service.AdminService
import MegaVnc.Service.RemotePcService

/-! # GlobalExceptionHandler

An exception that leaves a controller is answered by the method for its class.
Most of the methods show a page, for which they query the services again; the one
for assignments makes the queries the page of a member's groups is made of.
-/

namespace MegaVnc

open Relational Fallible

/-- The values added to a model. -/
inductive Attribute where
  | flag (value : Bool)
  | text (value : String)
  | user (user : User)
  | member (member : Member)
  | members (members : List Member)
  | groups (groups : List Group)
  | remotePcs (remotePcs : List ResponseRemotePcDto)
  | files (files : List FileInfo)
  | registerRemotePcDto (registerRemotePcDto : RegisterRemotePcDto)
  | userRegisterDto (userRegisterDto : UserRegisterDto)
  | assignGroupDto (assignGroupDto : AssignGroupDto)
deriving DecidableEq, Repr

/-- The body that an app is sent for an error. -/
structure ErrorResponse where
  message : String
  status : HttpStatus
  code : String
deriving DecidableEq, Repr

/-- Its status and code are those of the error. -/
def ErrorResponse.of (errorCode : ErrorCode) (message : String) : ErrorResponse where
  message := message
  status := errorCode.getStatus
  code := errorCode.getCode

/-- A view with its model, or a body with its status. -/
inductive Answer where
  | view (name : String) (model : List (String × Attribute))
  | body (response : ErrorResponse) (status : HttpStatus)
deriving DecidableEq, Repr

/-- The empty form of a registration. -/
def RegisterRemotePcDto.blank : RegisterRemotePcDto where
  accessPassword := none
  remotePcName := none
  groupName := none

/-- The empty form of a user. -/
def UserRegisterDto.blank : UserRegisterDto where
  username := none
  password := none
  passwordConfirm := none

/-- The empty form of an assignment. -/
def AssignGroupDto.blank : AssignGroupDto where
  selectedGroupId := none
  selectedUserId := none

namespace AdminAssignController

/-- The page of the assignments of a user. -/
def showAssignGroups (db : Database) (memberId : Long) : Except Exception Answer := do
  let user ← AdminAssignService.findByUserId db memberId
  let assignedGroups ← AdminAssignService.listAssignedGroups db memberId
  let unassignedGroups ← AdminAssignService.listUnassignedGroups db memberId
  pure (.view "admin/userManagement/assign"
    [("user", .member user), ("first", .flag true), ("assignedGroups", .groups assignedGroups),
      ("unassignedGroups", .groups unassignedGroups), ("AssignGroupDto", .assignGroupDto .blank)])

end AdminAssignController

namespace GlobalExceptionHandler

-- The write to the log of errors, a table no service reads. It is given the
-- exception with its stack trace, and can fail.
variable (saveErrorLogToDB : Exception → Except Exception Unit)

/-- Errors of the server are logged. -/
def logServerError (errorCode : ErrorCode) (exception : Exception) : Except Exception Unit :=
  if errorCode.getStatus.is5xxServerError then saveErrorLogToDB exception else .ok ()

/-- Without a session there is no principal to take the username of. -/
def handleRemotePcViewException (db : Database) (user : Option User) (errorCode : ErrorCode)
    (message : String) : Except Exception Answer := do
  let user ← orElseThrow user .nullPointerException
  let groups ← RemotePcService.findGroupByMember db user
  let remotePcs := RemotePcService.findByGroups db groups
  logServerError saveErrorLogToDB errorCode (.remotePcException errorCode message)
  pure (.view "remote-pcs"
    [("errorMessage", .text message), ("error", .flag true), ("remotePcs", .remotePcs remotePcs),
      ("user", .user user), ("groups", .groups groups),
      ("RegisterRemotePcDto", .registerRemotePcDto .blank)])

/-- An app is sent the error as a body. -/
def apiException (errorCode : ErrorCode) (message : String) : Except Exception Answer := do
  logServerError saveErrorLogToDB errorCode (.apiException errorCode message)
  pure (.body (.of errorCode message) errorCode.getStatus)

/-- The page of the users is shown again, with the message. -/
def handleAdminUserException (db : Database) (errorCode : ErrorCode) (message : String) :
    Except Exception Answer := do
  let users := AdminUserService.listAllUsers db
  logServerError saveErrorLogToDB errorCode (.adminUserException errorCode message)
  pure (.view "admin/userManagement/users"
    [("error", .flag true), ("errorMessage", .text message), ("users", .members users),
      ("UserRegisterDto", .userRegisterDto .blank)])

/-- So is the page of the groups. -/
def handleAdminGroupException (db : Database) (errorCode : ErrorCode) (message : String) :
    Except Exception Answer := do
  let groups := AdminGroupService.listAllGroups db
  logServerError saveErrorLogToDB errorCode (.adminGroupException errorCode message)
  pure (.view "admin/groupManagement/groups"
    [("error", .flag true), ("errorMessage", .text message), ("groups", .groups groups)])

/-- A null id is an illegal argument of `findById`. -/
def handleAdminAssignException (db : Database) (errorCode : ErrorCode) (message : String)
    (memberId : Option Long) : Except Exception Answer := do
  let id ← orElseThrow memberId .illegalArgumentException
  let user ← AdminAssignService.findByUserId db id
  let assignedGroups ← AdminAssignService.listAssignedGroups db id
  let unassignedGroups ← AdminAssignService.listUnassignedGroups db id
  logServerError saveErrorLogToDB errorCode (.adminAssignException errorCode message memberId)
  pure (.view "admin/userManagement/assign"
    [("error", .flag true), ("errorMessage", .text message), ("user", .member user),
      ("assignedGroups", .groups assignedGroups), ("unassignedGroups", .groups unassignedGroups),
      ("AssignGroupDto", .assignGroupDto .blank)])

/-- A download that fails shows the page 404. -/
def handleFileDownloadException (errorCode : ErrorCode) (message : String) :
    Except Exception Answer := do
  logServerError saveErrorLogToDB errorCode (.fileDownloadException errorCode message)
  pure (.view "404" [])

/-- The list of files is shown again, with the message. -/
def handleFileDeleteException (db : Database) (errorCode : ErrorCode) (message : String) :
    Except Exception Answer := do
  let files := FileService.findAllByReconnectId db none
  logServerError saveErrorLogToDB errorCode (.fileDeleteException errorCode message)
  pure (.view "admin/fileManagement/fileList"
    [("error", .flag true), ("errorMessage", .text message), ("files", .files files)])

/-- Every other exception shows the page 500. -/
def handleException (exception : Exception) : Except Exception Answer := do
  saveErrorLogToDB exception
  pure (.view "500" [])

/-- The answer to an exception thrown while the principal's request is served. -/
def handle (db : Database) (principal : Option User) : Exception → Except Exception Answer
  | .remotePcException errorCode message =>
      handleRemotePcViewException saveErrorLogToDB db principal errorCode message
  | .apiException errorCode message => apiException saveErrorLogToDB errorCode message
  | .adminUserException errorCode message =>
      handleAdminUserException saveErrorLogToDB db errorCode message
  | .adminGroupException errorCode message =>
      handleAdminGroupException saveErrorLogToDB db errorCode message
  | .adminAssignException errorCode message memberId =>
      handleAdminAssignException saveErrorLogToDB db errorCode message memberId
  | .fileDownloadException errorCode message =>
      handleFileDownloadException saveErrorLogToDB errorCode message
  | .fileDeleteException errorCode message =>
      handleFileDeleteException saveErrorLogToDB db errorCode message
  | exception => handleException saveErrorLogToDB exception

@[simp] theorem logServerError_eq (errorCode : ErrorCode) (exception : Exception) :
    logServerError saveErrorLogToDB errorCode exception = .ok () := by
  simp only [logServerError, ErrorCode.getStatus_is5xxServerError, Bool.false_eq_true, ↓reduceIte]

end GlobalExceptionHandler

/-! ### The pages of the errors -/

/-- The page an exception is shown on, with what it is about. -/
inductive ErrorPage where
  | remotePcs
  | users
  | groups
  | assign (memberId : Option Long)
  | fileList
deriving DecidableEq, Repr

/-- The name of the page. -/
def ErrorPage.view : ErrorPage → String
  | .remotePcs => "remote-pcs"
  | .users => "admin/userManagement/users"
  | .groups => "admin/groupManagement/groups"
  | .assign _ => "admin/userManagement/assign"
  | .fileList => "admin/fileManagement/fileList"

/-- The page that an exception goes back to, if it has one. -/
def Exception.errorPage : Exception → Option ErrorPage
  | .remotePcException _ _ => some .remotePcs
  | .adminUserException _ _ => some .users
  | .adminGroupException _ _ => some .groups
  | .adminAssignException _ _ memberId => some (.assign memberId)
  | .fileDeleteException _ _ => some .fileList
  | _ => none

/-- The member a page is about is stored: whoever has the session's username, or
the one with the id. -/
def ErrorPage.Known (db : Database) (principal : Option User) : ErrorPage → Prop
  | .remotePcs => ∃ user ∈ principal, ∃ member ∈ db.member.rows, member.username = user.username
  | .assign memberId => ∃ member ∈ db.member.rows, memberId = some member.id
  | .users | .groups | .fileList => True

instance (db : Database) (principal : Option User) :
    (page : ErrorPage) → Decidable (page.Known db principal)
  | .remotePcs => inferInstanceAs (Decidable (∃ user ∈ principal, ∃ member ∈ db.member.rows, _))
  | .assign _ => inferInstanceAs (Decidable (∃ member ∈ db.member.rows, _))
  | .users | .groups | .fileList => inferInstanceAs (Decidable True)

namespace GlobalExceptionHandler

variable {saveErrorLogToDB : Exception → Except Exception Unit} {db : Database}
  {principal : Option User} {errorCode : ErrorCode} {message : String}

/-- The page of PCs is shown to whoever has a stored username. -/
theorem handleRemotePcViewException_shows_iff :
    (∃ model, handleRemotePcViewException saveErrorLogToDB db principal errorCode message =
        .ok (.view "remote-pcs" model)) ↔
      ∃ user ∈ principal, ∃ member ∈ db.member.rows, member.username = user.username := by
  constructor
  · rintro ⟨model, shown⟩
    simp only [handleRemotePcViewException, RemotePcService.findGroupByMember, bind_eq_ok,
      orElseThrow_eq_ok] at shown
    obtain ⟨user, session, -, ⟨member, known, -⟩, -⟩ := shown
    have named : member.username = user.username := by simpa using List.find?_some known
    exact ⟨user, session, member, List.mem_of_find?_eq_some known, named⟩
  · rintro ⟨user, session, member, present, named⟩
    have stored : (db.findByUsername user.username).isSome :=
      List.find?_isSome.mpr ⟨member, present, decide_eq_true named⟩
    obtain ⟨found, known⟩ := Option.isSome_iff_exists.mp stored
    cases session
    simp only [handleRemotePcViewException, RemotePcService.findGroupByMember, known,
      orElseThrow, ok_bind, logServerError_eq]
    exact ⟨_, rfl⟩

/-- The page of a member's groups is shown when the member is stored. -/
theorem handleAdminAssignException_shows_iff {memberId : Option Long} :
    (∃ model, handleAdminAssignException saveErrorLogToDB db errorCode message memberId =
        .ok (.view "admin/userManagement/assign" model)) ↔
      ∃ member ∈ db.member.rows, memberId = some member.id := by
  constructor
  · rintro ⟨model, shown⟩
    simp only [handleAdminAssignException, AdminAssignService.findByUserId, bind_eq_ok,
      orElseThrow_eq_ok] at shown
    obtain ⟨id, rfl, member, found, -⟩ := shown
    obtain ⟨present, rfl⟩ := Table.findById_eq_some.mp found
    exact ⟨member, present, rfl⟩
  · rintro ⟨member, present, rfl⟩
    have found : db.member.findById member.id = some member :=
      Table.findById_eq_some.mpr ⟨present, rfl⟩
    simp only [handleAdminAssignException, AdminAssignService.findByUserId,
      AdminAssignService.listAssignedGroups, AdminAssignService.listUnassignedGroups, found,
      orElseThrow, ok_bind, logServerError_eq]
    exact ⟨_, rfl⟩

/-- The method for an exception shows its page exactly when the member the page
is about is stored. -/
theorem handle_shows_iff {exception : Exception} {page : ErrorPage}
    (shown : exception.errorPage = some page) :
    (∃ model, handle saveErrorLogToDB db principal exception = .ok (.view page.view model)) ↔
      page.Known db principal := by
  cases exception with
  | remotePcException errorCode message =>
      cases shown
      exact handleRemotePcViewException_shows_iff
  | adminAssignException errorCode message memberId =>
      cases shown
      exact handleAdminAssignException_shows_iff
  | adminUserException errorCode message | adminGroupException errorCode message
  | fileDeleteException errorCode message =>
      cases shown
      simp only [handle, handleAdminUserException, handleAdminGroupException,
        handleFileDeleteException, logServerError_eq, ok_bind]
      exact iff_of_true ⟨_, rfl⟩ trivial
  | _ => cases shown

end GlobalExceptionHandler

end MegaVnc
