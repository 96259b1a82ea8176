import Mathlib.Init

/-! # Error codes and exceptions

Every business exception carries its error code and the code's message followed
by the detail its thrower adds.
-/

namespace MegaVnc

/-- The errors that the services tell apart. -/
inductive ErrorCode where
  | groupNotFound
  | groupNotSelected
  | ownGroupOnly
  | ownGroupOnly2
  | alreadyExistGroup
  | cannotDeleteDefaultGroup
  | alreadyAssignedGroup
  | pcNotFound
  | pcNameDuplication
  | passwordNotMatch
  | offlineStatus
  | deleteNotOnlyWhenActive
  | missingPcName
  | missingAccessPassword
  | cannotDeleteDefaultPc
  | alreadyAssignedPc
  | cannotDeleteAssignedPc
  | cannotDisassignPc
  | disassignedPc
  | userNotFound
  | adminCannotDelete
  | userAlreadyExist
  | passwordNotConfirmed
  | fileNotFound
  | fileCannotUpload
  | encodingFail
  | fileCannotDelete
deriving DecidableEq, Repr

/-- The text of an error, which a detail may follow. -/
def ErrorCode.getMessage : ErrorCode → String
  | .groupNotFound => "존재하지 않는 그룹입니다. "
  | .groupNotSelected => "그룹이 선택되지 않았습니다. "
  | .ownGroupOnly => "자신의 그룹만 조회 가능합니다. "
  | .ownGroupOnly2 => "자신의 그룹만 삭제 가능합니다. "
  | .alreadyExistGroup => "이미 존재하는 그룹입니다. "
  | .cannotDeleteDefaultGroup => "기본 그룹은 삭제할 수 없습니다. "
  | .alreadyAssignedGroup => "이미 배정된 그룹입니다. "
  | .pcNotFound => "존재하지 않는 PC입니다. "
  | .pcNameDuplication => "이미 존재하는 PC이름 입니다. "
  | .passwordNotMatch => "접근 비밀번호가 일치하지 않습니다. "
  | .offlineStatus => "오프라인 상태입니다. "
  | .deleteNotOnlyWhenActive => "PC가 사용중일 때는 삭제가 불가능 합니다. "
  | .missingPcName => "pc의 이름을 입력해 주세요. "
  | .missingAccessPassword => "접근 비밀번호를 입력해 주세요. "
  | .cannotDeleteDefaultPc => "기본 pc는 삭제할 수 없습니다. "
  | .alreadyAssignedPc => "이미 등록된 pc 입니다. 다른 pc를 선택해 주세요. "
  | .cannotDeleteAssignedPc => "등록되지 않은 pc만 삭제할 수 있습니다. "
  | .cannotDisassignPc => "이미 연결이 해제된 pc입니다."
  | .disassignedPc => "연결되지 않은 PC 입니다."
  | .userNotFound => "존재하지 않는 사용자 입니다. "
  | .adminCannotDelete => "어드민은 삭제할 수 없습니다. "
  | .userAlreadyExist => "이미 존재하는 사용자 이름입니다. "
  | .passwordNotConfirmed => "비밀번호를 다시 확인하세요. "
  | .fileNotFound => "파일 다운로드 실패 : 파일을 서버에서 찾을 수 없음 "
  | .fileCannotUpload => "파일 업로드 실패 : 파일을 업로드 할 수 없음 "
  | .encodingFail => "파일 업로드 실패 : 파일명을 해시 할 수 없음"
  | .fileCannotDelete => "파일 다운로드 실패 : 파일을 서버에서 삭제하지 못하였습니다. "

/-- The statuses the codes are given. -/
inductive HttpStatus where
  | badRequest
  | unauthorized
  | notFound
  | conflict
deriving DecidableEq, Repr

/-- The number of a status. -/
def HttpStatus.value : HttpStatus → Nat
  | .badRequest => 400
  | .unauthorized => 401
  | .notFound => 404
  | .conflict => 409

/-- Whether the error is the server's own. -/
def HttpStatus.is5xxServerError (status : HttpStatus) : Bool :=
  status.value / 100 = 5

/-- The code that a client is sent. -/
def ErrorCode.getCode : ErrorCode → String
  | .groupNotFound => "G001"
  | .groupNotSelected => "G002"
  | .ownGroupOnly => "G003"
  | .ownGroupOnly2 => "G004"
  | .alreadyExistGroup => "G005"
  | .cannotDeleteDefaultGroup => "G006"
  | .alreadyAssignedGroup => "G007"
  | .pcNotFound => "R001"
  | .pcNameDuplication => "R002"
  | .passwordNotMatch => "R003"
  | .offlineStatus => "R004"
  | .deleteNotOnlyWhenActive => "R005"
  | .missingPcName => "R006"
  | .missingAccessPassword => "R007"
  | .cannotDeleteDefaultPc => "R008"
  | .alreadyAssignedPc => "R009"
  | .cannotDeleteAssignedPc => "R010"
  | .cannotDisassignPc => "R011"
  | .disassignedPc => "R012"
  | .userNotFound => "U001"
  | .adminCannotDelete => "U002"
  | .userAlreadyExist => "U003"
  | .passwordNotConfirmed => "U004"
  | .fileNotFound => "F001"
  | .fileCannotUpload => "F002"
  | .encodingFail => "F003"
  | .fileCannotDelete => "F004"

/-- The status of the response to a client. -/
def ErrorCode.getStatus : ErrorCode → HttpStatus
  | .groupNotFound | .pcNotFound | .userNotFound | .fileNotFound => .notFound
  | .groupNotSelected | .alreadyExistGroup | .cannotDeleteDefaultGroup | .alreadyAssignedGroup
  | .pcNameDuplication | .offlineStatus | .deleteNotOnlyWhenActive | .missingPcName
  | .missingAccessPassword | .cannotDeleteDefaultPc | .alreadyAssignedPc
  | .cannotDeleteAssignedPc | .cannotDisassignPc | .disassignedPc | .adminCannotDelete
  | .fileCannotUpload | .encodingFail | .fileCannotDelete => .badRequest
  | .ownGroupOnly | .ownGroupOnly2 | .passwordNotMatch => .unauthorized
  | .userAlreadyExist | .passwordNotConfirmed => .conflict

@[simp] theorem ErrorCode.getStatus_is5xxServerError (errorCode : ErrorCode) :
    errorCode.getStatus.is5xxServerError = false := by
  cases errorCode <;> rfl

/-- The business exceptions, then those of the platform. -/
inductive Exception where
  | apiException (errorCode : ErrorCode) (message : String)
  | remotePcException (errorCode : ErrorCode) (message : String)
  | adminUserException (errorCode : ErrorCode) (message : String)
  | adminGroupException (errorCode : ErrorCode) (message : String)
  | adminAssignException (errorCode : ErrorCode) (message : String) (memberId : Option Int)
  | fileDownloadException (errorCode : ErrorCode) (message : String)
  | fileDeleteException (errorCode : ErrorCode) (message : String)
  | usernameNotFoundException (message : String)
  | runtimeException (message : String)
  | nullPointerException
  | illegalArgumentException
  | noSuchElementException
  | arrayIndexOutOfBoundsException
  | numberFormatException
  | incorrectResultSizeException
  | dataIntegrityViolationException
deriving DecidableEq, Repr

namespace Exception

/-- The message of a business exception; its thrower's detail is empty when
only the code is given. -/
def businessMessage (errorCode : ErrorCode) (detail : String) : String :=
  errorCode.getMessage ++ detail

/-- The exception of the app API. -/
def api (errorCode : ErrorCode) (detail : String) : Exception :=
  .apiException errorCode (businessMessage errorCode detail)

/-- The exception of the pages of PCs. -/
def remotePc (errorCode : ErrorCode) (detail : String) : Exception :=
  .remotePcException errorCode (businessMessage errorCode detail)

/-- The exception of the administration of users. -/
def adminUser (errorCode : ErrorCode) : Exception :=
  .adminUserException errorCode (businessMessage errorCode "")

/-- The exception of the administration of groups. -/
def adminGroup (errorCode : ErrorCode) (detail : String) : Exception :=
  .adminGroupException errorCode (businessMessage errorCode detail)

/-- The exception of assignments, which keeps the member for the page it goes back to. -/
def adminAssign (errorCode : ErrorCode) (memberId : Option Int) (detail : String) :
    Exception :=
  .adminAssignException errorCode (businessMessage errorCode detail) memberId

/-- The exception of a download. -/
def fileDownload (errorCode : ErrorCode) (detail : String) : Exception :=
  .fileDownloadException errorCode (businessMessage errorCode detail)

/-- The exception of a deletion of files. -/
def fileDelete (errorCode : ErrorCode) (detail : String) : Exception :=
  .fileDeleteException errorCode (businessMessage errorCode detail)

end Exception

end MegaVnc
