import MegaVnc.System.Application
import MegaVnc.Web.SecurityConfig

/-! # The controllers

Which operation a request is answered with. The mappings are those of the
controllers' annotations; where two patterns match, the more specific one stands
first. Methods that only show a page change nothing and stand for no operation.
-/

namespace MegaVnc

open Application

/-- The methods of the controllers. `createGroup` is the method `createUser` of
`GroupApiController`, and `findAllGroups` is `getRepeaterIdByPcName` there. -/
inductive Handler where
  | home
  | showRemotePcs
  | showViewer
  | downloadServer
  | deleteRemotePc
  | connectSettingRepeater
  | getRemotePcStatusByRepeaterId
  | disAssignRemotePc
  | registerRemotePc
  | createGroup
  | findAllGroups
  | createUser
  | uploadFile
  | showFiles
  | management
  | upload
  | list
  | deleteDistributionFile
  | downloadFile
  | showGroups
  | deleteGroup
  | showUsers
  | deleteUser
  | showAssignGroups
  | assignGroup
  | disassignGroup
  | logs
  | connectLog
  | errorLog
  | showChangePassword
  | processChangePassword
  | showLogin
deriving DecidableEq, Repr

/-- A segment of a mapped path; a variable takes any segment but the empty one. -/
inductive Segment where
  | literal (text : String)
  | variable
deriving DecidableEq, Repr

/-- A mapping without a method takes every method. -/
structure Mapping where
  method : Option HttpMethod
  pattern : List Segment
  handler : Handler
deriving DecidableEq, Repr

/-- A mapping of `GET` takes `HEAD` too. -/
def Mapping.takes (mapping : Mapping) (method : HttpMethod) : Bool :=
  mapping.method = none ∨ mapping.method = some method ∨
    mapping.method = some .get ∧ method = .head

/-- The texts of the variables when the path matches. -/
def capture : List Segment → List String → Option (List String)
  | [], [] => some []
  | .literal text :: pattern, segment :: path =>
      if segment = text then capture pattern path else none
  | .variable :: pattern, segment :: path =>
      if segment = "" then none else (capture pattern path).map fun texts => segment :: texts
  | [], _ :: _ => none
  | _ :: _, [] => none

/-- The handlers with their methods and paths. -/
def mappings : List Mapping :=
  [⟨some .get, [.literal ""], .home⟩,
    ⟨some .get, [.literal "remote-pcs"], .showRemotePcs⟩,
    ⟨some .get, [.literal "remote-pcs", .literal "download-server"], .downloadServer⟩,
    ⟨some .get, [.literal "remote-pcs", .variable], .showViewer⟩,
    ⟨some .get, [.literal "remote-pcs", .literal "delete", .variable], .deleteRemotePc⟩,
    ⟨some .post, [.literal "api", .literal "remote-pcs"], .connectSettingRepeater⟩,
    ⟨some .get, [.literal "api", .literal "remote-pcs", .variable],
      .getRemotePcStatusByRepeaterId⟩,
    ⟨some .delete, [.literal "api", .literal "remote-pcs", .variable], .disAssignRemotePc⟩,
    ⟨some .post, [.literal "api", .literal "remote-pcs", .literal "register-pc"],
      .registerRemotePc⟩,
    ⟨some .post, [.literal "api", .literal "groups", .literal "create"], .createGroup⟩,
    ⟨some .get, [.literal "api", .literal "groups"], .findAllGroups⟩,
    ⟨some .post, [.literal "api", .literal "users", .literal "regist"], .createUser⟩,
    ⟨some .post, [.literal "file"], .uploadFile⟩,
    ⟨none, [.literal "files", .literal "download"], .showFiles⟩,
    ⟨none, [.literal "files", .literal "management"], .management⟩,
    ⟨none, [.literal "files", .literal "upload"], .upload⟩,
    ⟨none, [.literal "files", .literal "list"], .list⟩,
    ⟨some .get, [.literal "files", .literal "delete-files", .variable], .deleteDistributionFile⟩,
    ⟨some .get, [.literal "files", .literal "download-files", .variable], .downloadFile⟩,
    ⟨some .get, [.literal "admin", .literal "groups"], .showGroups⟩,
    ⟨some .get, [.literal "admin", .literal "groups", .literal "delete", .variable],
      .deleteGroup⟩,
    ⟨some .get, [.literal "admin", .literal "users"], .showUsers⟩,
    ⟨some .get, [.literal "admin", .literal "users", .literal "delete", .variable], .deleteUser⟩,
    ⟨some .get, [.literal "admin", .literal "assign", .variable], .showAssignGroups⟩,
    ⟨some .post, [.literal "admin", .literal "assign"], .assignGroup⟩,
    ⟨some .get, [.literal "admin", .literal "assign", .variable, .variable], .disassignGroup⟩,
    ⟨none, [.literal "admin", .literal "logs"], .logs⟩,
    ⟨none, [.literal "admin", .literal "connectLogs"], .connectLog⟩,
    ⟨none, [.literal "admin", .literal "errorLogs"], .errorLog⟩,
    ⟨some .get, [.literal "change-password"], .showChangePassword⟩,
    ⟨some .post, [.literal "change-password"], .processChangePassword⟩,
    ⟨some .get, [.literal "login"], .showLogin⟩]

/-- The method that takes a request, with the texts of the path variables. -/
def dispatch (request : HttpRequest) : Option (Handler × List String) :=
  mappings.findSome? fun mapping =>
    if mapping.takes request.method then
      (capture mapping.pattern request.path).map fun texts => (mapping.handler, texts)
    else none

/-- The framework's conversions of a text to a number. -/
structure Conversion where
  toLong : String → Option Long
  toInteger : String → Option Long

/-- A form field left empty is null. -/
def Conversion.toNullableLong (conversion : Conversion) : Option String → Option (Option Long)
  | none => some none
  | some text => if text = "" then some none else (conversion.toLong text).map some

/-- What the server meets while it answers: its clock and the failures of its
disk and of its connection. -/
structure Circumstances where
  now : Date
  uploadFault : Option UploadFault
  streamFault : Option StreamFault
  deleteFails : Option String
deriving DecidableEq, Repr

/-- The JSON body of the registration of a user. -/
def RequestBody.userRegisterDto (body : RequestBody) : UserRegisterDto where
  username := body.lookup "username"
  password := body.lookup "password"
  passwordConfirm := body.lookup "passwordConfirm"

/-- The operation behind a method of a controller; none when an argument cannot
be converted or is missing. A method that takes the body refuses a request without a
JSON object in it. -/
def Handler.operation (conversion : Conversion) (request : HttpRequest)
    (circumstances : Circumstances) (texts : List String) : Handler → Option Operation
  | .showRemotePcs => do
      let user ← request.user
      pure (.showRemotePcs user (request.parameter "selectedGroup"))
  | .showViewer => do
      let user ← request.user
      let id ← texts[0]?.bind conversion.toLong
      pure (.showViewer user id)
  | .deleteRemotePc => do
      let user ← request.user
      let id ← texts[0]?.bind conversion.toLong
      pure (.deleteRemotePc user id)
  | .connectSettingRepeater => do
      let body ← request.body
      pure (.connectSettingRepeater
        { groupName := body.lookup "groupName"
          pcName := body.lookup "pcName"
          accessPassword := body.lookup "accessPassword"
          reconnectId := body.lookup "reconnectId" })
  | .getRemotePcStatusByRepeaterId => do
      let repeaterId ← texts[0]?.bind conversion.toLong
      pure (.getRemotePcStatus repeaterId)
  | .disAssignRemotePc => do
      let reconnectId ← texts[0]?
      pure (.disAssignRemotePc reconnectId)
  | .registerRemotePc => do
      let body ← request.body
      pure (.registerRemotePcApi
        { accessPassword := body.lookup "accessPassword"
          remotePcName := body.lookup "remotePcName"
          groupName := body.lookup "groupName" })
  | .createGroup => do
      let body ← request.body
      pure (.createGroup (body.lookup "groupName"))
  | .createUser => do
      let body ← request.body
      pure (.createUser body.userRegisterDto)
  | .uploadFile => do
      let user ← request.user
      let file ← request.file
      let repeaterId ← conversion.toNullableLong (request.parameter "repeaterId")
      pure (.uploadFile circumstances.now file repeaterId user circumstances.uploadFault)
  | .showFiles => pure (.showFiles (request.parameter "reconnectId"))
  | .list => pure .listFiles
  | .deleteDistributionFile => do
      let fileSeq ← texts[0]?.bind conversion.toInteger
      pure (.deleteDistributionFile fileSeq circumstances.deleteFails)
  | .downloadFile => do
      let fileSeq ← texts[0]?.bind conversion.toInteger
      pure (.downloadFile fileSeq circumstances.streamFault)
  | .deleteGroup => do
      let groupId ← texts[0]?.bind conversion.toLong
      pure (.deleteGroup groupId)
  | .deleteUser => do
      let memberId ← texts[0]?.bind conversion.toLong
      pure (.deleteUser memberId)
  | .assignGroup => do
      let selectedGroupId ← conversion.toNullableLong (request.parameter "selectedGroupId")
      let selectedUserId ← conversion.toNullableLong (request.parameter "selectedUserId")
      pure (.assignGroup { selectedGroupId := selectedGroupId, selectedUserId := selectedUserId })
  | .disassignGroup => do
      let memberId ← texts[0]?.bind conversion.toLong
      let groupId ← texts[1]?.bind conversion.toLong
      pure (.disassignGroup memberId groupId)
  | .processChangePassword => do
      let user ← request.user
      pure (.processChangePassword
        { password := request.parameter "password"
          newPassword := request.parameter "newPassword"
          newPasswordConfirm := request.parameter "newPasswordConfirm" } user)
  | .home | .downloadServer | .findAllGroups | .management | .upload | .showGroups | .showUsers
  | .showAssignGroups | .logs | .connectLog | .errorLog | .showChangePassword | .showLogin => none

/-- A request together with what the server meets while it answers it. -/
structure Exchange where
  request : HttpRequest
  circumstances : Circumstances
deriving DecidableEq, Repr

/-- The operation an admitted request leads to. -/
def Exchange.operation (conversion : Conversion) (exchange : Exchange) : Option Operation :=
  if SecurityConfig.admits exchange.request then do
    let (handler, texts) ← dispatch exchange.request
    handler.operation conversion exchange.request exchange.circumstances texts
  else none

/-- A request that reaches a handler is an operation; another changes nothing. -/
def serve (environment : Environment) (conversion : Conversion) (world : World)
    (exchange : Exchange) : World :=
  match exchange.operation conversion with
  | some operation => step environment world operation
  | none => world

end MegaVnc
