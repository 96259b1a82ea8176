import MegaVnc.Repository.World

/-! # FileService

A file is a row of `file_info` and a file of the upload directory. The row is
part of the transaction; the directory is not. Where the code can meet an I/O
failure, the failure is an input.
-/

namespace MegaVnc

open Relational Fallible

/-- A file as it is sent. -/
structure MultipartFile where
  originalFilename : String
  bytes : List UInt8
deriving DecidableEq, Repr

/-- Where an upload meets an `IOException`, with its message. A copy can stop
before its target exists or after some bytes of it. -/
inductive UploadFault where
  | createDirectories (message : String)
  | copyBeforeCreate (message : String)
  | copyAfter (count : Nat) (message : String)
deriving DecidableEq, Repr

/-- Where the stream of a download stops: in the copy after some bytes, or when
the file is deleted. -/
inductive StreamFault where
  | copyAfter (count : Nat) (message : String)
  | delete (message : String)
deriving DecidableEq, Repr

namespace FileService

/-- The mark of the files distributed by the administrator. -/
def adminRequest : String := "ADMIN_REQUEST"

/-- The reconnectId a file is stored under. -/
def uploadReconnectId (db : Database) (repeaterId : Option Long) (user : User) :
    Except Exception String :=
  match repeaterId with
  | some repeaterId => do
      let remotePc ← orElseThrow (db.findByRepeaterId repeaterId) (.api .pcNotFound "")
      orElseThrow remotePc.reconnectId (.api .disassignedPc "")
  | none =>
      if user.isAdmin then .ok adminRequest else .error (.api .pcNotFound "")

/-- The name of an upload begins with its time. -/
def uniqueFileName (environment : Environment) (now : Date) (file : MultipartFile) : String :=
  environment.formatTimestamp now ++ "_" ++ environment.cleanPath file.originalFilename

/-- The name on the disk is the encrypted one. -/
def encryptedFileName (environment : Environment) (fileName : String) : Except Exception String :=
  match environment.encryptName (environment.uriEncode fileName) with
  | .ok encrypted => .ok encrypted
  | .error message => .error (.api .encodingFail (": " ++ message))

/-- The path an upload writes to and keeps in its row. -/
def resolve (environment : Environment) (encryptedFileName : String) : String :=
  UnixPath.resolve environment.uploadDir encryptedFileName

/-- The path a download and a deletion compute from the name of the row. -/
def fileLocation (environment : Environment) (encryptedFileName : String) : String :=
  UnixPath.resolve (environment.toAbsolutePath environment.uploadDir) encryptedFileName

@[simp] theorem toAbsolutePath_resolve (environment : Environment) (encryptedFileName : String) :
    environment.toAbsolutePath (resolve environment encryptedFileName) =
      fileLocation environment encryptedFileName :=
  (UnixPath.resolve_assoc _ _ _).symm

/-- An upload fails with the message of what failed. -/
def cannotUpload (message : String) : Exception :=
  .api .fileCannotUpload (": " ++ message)

/-- `Files.createDirectories` when the directory does not exist. -/
def ensureDirectory (disk : Disk) (fault : Option UploadFault) : Except Exception Disk :=
  if disk.directory then .ok disk
  else
    match fault with
    | some (.createDirectories message) => .error (cannotUpload message)
    | _ => .ok { disk with directory := true }

/-- `Files.copy` to a path that must not exist yet. -/
def copyToDisk (environment : Environment) (disk : Disk) (filePath : String) (bytes : List UInt8)
    (fault : Option UploadFault) : Except Exception Unit × Disk :=
  let path := environment.toAbsolutePath filePath
  match disk.read path, fault with
  | some _, _ => (.error (cannotUpload filePath), disk)
  | none, some (.copyBeforeCreate message) => (.error (cannotUpload message), disk)
  | none, some (.copyAfter count message) =>
      (.error (cannotUpload message), disk.write path (bytes.take count))
  | none, _ => (.ok (), disk.write path bytes)

/-- The response is the generated `seq`. The row is inserted before the copy
and rolled back when the copy fails. -/
def uploadFile (environment : Environment) (world : World) (now : Date) (file : MultipartFile)
    (repeaterId : Option Long) (user : User) (fault : Option UploadFault) :
    Except Exception Long × World :=
  match uploadReconnectId world.db repeaterId user with
  | .error exception => (.error exception, world)
  | .ok reconnectId =>
      match ensureDirectory world.disk fault with
      | .error exception => (.error exception, world)
      | .ok disk =>
          let fileName := uniqueFileName environment now file
          match encryptedFileName environment fileName with
          | .error exception => (.error exception, { world with disk := disk })
          | .ok encrypted =>
              let filePath := resolve environment encrypted
              match world.db.saveFileInfo now fileName filePath file.bytes.length reconnectId with
              | .error exception => (.error exception, { world with disk := disk })
              | .ok db =>
                  match copyToDisk environment disk filePath file.bytes fault with
                  | (.error exception, disk) => (.error exception, { world with disk := disk })
                  | (.ok (), disk) =>
                      (.ok world.db.fileInfo.nextKey, { world with db := db, disk := disk })

/-- What the transaction of a download leaves to the response body. -/
structure StreamingResponseBody where
  fileInfo : FileInfo
  fileLocation : String
deriving DecidableEq, Repr

/-- The response of a download: its header and the body that is still to be streamed. -/
structure ResponseEntity where
  contentDisposition : String
  body : StreamingResponseBody
deriving DecidableEq, Repr

/-- Eight digits, an underscore and six digits. -/
def IsTimestamp (text : List Char) : Prop :=
  text.length = 15 ∧ (text.take 8).all Char.isDigit ∧ text[8]? = some '_' ∧
    (text.drop 9).all Char.isDigit

instance (text : List Char) : Decidable (IsTimestamp text) :=
  inferInstanceAs (Decidable (_ ∧ _))

/-- `replaceFirst("^\\d{8}_\\d{6}_", "")`. -/
def withoutTimestamp (fileName : String) : String :=
  if IsTimestamp (fileName.toList.take 15) ∧ fileName.toList[15]? = some '_' then
    .ofList (fileName.toList.drop 16)
  else fileName

/-- The header names the file as it was uploaded. -/
def contentDisposition (environment : Environment) (fileName : String) : String :=
  "attachment; filename=\"" ++ environment.uriEncode fileName ++ "\""

/-- The row of a file that is not distributed is deleted before its bytes are
streamed. -/
def downloadFile (environment : Environment) (db : Database) (fileSeq : Long) :
    Except Exception (ResponseEntity × Database) := do
  let fileInfo ← orElseThrow (db.fileInfo.findById fileSeq) (.fileDownload .fileNotFound "")
  let encrypted ← encryptedFileName environment fileInfo.fileName
  let db := if fileInfo.reconnectId = adminRequest then db else db.deleteFileInfo fileSeq
  let responseBody : StreamingResponseBody :=
    { fileInfo := fileInfo, fileLocation := fileLocation environment encrypted }
  pure ({ contentDisposition := contentDisposition environment (withoutTimestamp fileInfo.fileName)
          body := responseBody }, db)

/-- The bytes written to the client, the outcome, and the directory after. -/
def StreamingResponseBody.writeTo (body : StreamingResponseBody) (disk : Disk)
    (fault : Option StreamFault) : List UInt8 × Except Exception Unit × Disk :=
  match disk.read body.fileLocation, fault with
  | none, _ => ([], .error (.fileDownload .fileNotFound (": " ++ body.fileLocation)), disk)
  | some bytes, some (.copyAfter count message) =>
      (bytes.take count, .error (.fileDownload .fileNotFound (": " ++ message)), disk)
  | some bytes, fault =>
      if body.fileInfo.reconnectId = adminRequest then (bytes, .ok (), disk)
      else
        match fault with
        | some (.delete message) => (bytes, .error (.fileDownload .fileCannotDelete message), disk)
        | _ => (bytes, .ok (), disk.delete body.fileLocation)

/-- `deleteFails` is the message of an `IOException` of the delete other than a
missing file. -/
def deleteDistributionFile (environment : Environment) (world : World) (fileSeq : Long)
    (deleteFails : Option String) : Except Exception World := do
  let fileInfo ← orElseThrow (world.db.fileInfo.findById fileSeq) (.fileDelete .fileNotFound "")
  throwIf (fileInfo.reconnectId ≠ adminRequest)
    (.fileDelete .fileCannotDelete "관리자가 배포한 파일이 아닙니다.")
  let encrypted ← encryptedFileName environment fileInfo.fileName
  let fileLocation := fileLocation environment encrypted
  throwIf (world.disk.read fileLocation = none) (.fileDelete .fileCannotDelete fileLocation)
  throwIf (deleteFails ≠ none) (.fileDelete .fileCannotDelete (deleteFails.getD ""))
  pure { world with
    db := world.db.deleteFileInfo fileSeq
    disk := world.disk.delete fileLocation }

/-- The files of the administrator, then those of the app. -/
def findAllByReconnectId (db : Database) (reconnectId : Option String) : List FileInfo :=
  let response := db.findAllByReconnectIdOrderByCreatedAtDesc adminRequest
  match reconnectId with
  | some reconnectId => response ++ db.findAllByReconnectIdOrderByCreatedAtDesc reconnectId
  | none => response

/-- The loop over the expired files. Deleted files stay deleted when a later one
fails and the rows are rolled back. -/
def cleanupLoop (environment : Environment) (cannotDelete : String → Bool) :
    List FileInfo → Database → Disk → Except Exception Database × Disk
  | [], db, disk => (.ok db, disk)
  | fileInfo :: rest, db, disk =>
      if cannotDelete fileInfo.filePath then
        (.error (.runtimeException ("파일 삭제 실패: " ++ fileInfo.filePath)), disk)
      else cleanupLoop environment cannotDelete rest (db.deleteFileInfo fileInfo.seq)
        (disk.delete (environment.toAbsolutePath fileInfo.filePath))

/-- `cannotDelete` holds of the paths whose deletion throws an `IOException`. -/
def cleanupOldFiles (environment : Environment) (world : World) (daysAgo : Date)
    (cannotDelete : String → Bool) : Except Exception Unit × World :=
  match cleanupLoop environment cannotDelete
      (world.db.findAllByCreatedAtBeforeAndReconnectIdIsNot daysAgo adminRequest)
      world.db world.disk with
  | (.ok db, disk) => (.ok (), { world with db := db, disk := disk })
  | (.error exception, disk) => (.error exception, { world with disk := disk })

/-- A name that was made unique by a timestamp is the name given again. -/
theorem withoutTimestamp_of_isTimestamp {timestamp : String} (fileName : String)
    (stamped : IsTimestamp timestamp.toList) :
    withoutTimestamp (timestamp ++ "_" ++ fileName) = fileName := by
  have letters : (timestamp ++ "_" ++ fileName).toList =
      timestamp.toList ++ '_' :: fileName.toList := by
    simp only [String.toList_append, List.append_assoc]
    rfl
  have stamp : (timestamp ++ "_" ++ fileName).toList.take 15 = timestamp.toList := by
    rw [letters, List.take_left' stamped.1]
  have mark : (timestamp ++ "_" ++ fileName).toList[15]? = some '_' := by
    rw [letters, List.getElem?_append_right (Nat.le_of_eq stamped.1), stamped.1]
    rfl
  have rest : (timestamp ++ "_" ++ fileName).toList.drop 16 = fileName.toList := by
    rw [letters, ← List.drop_drop (i := 1) (j := 15), List.drop_left' stamped.1]
    rfl
  rw [withoutTimestamp, if_pos ⟨stamp ▸ stamped, mark⟩, rest, String.ofList_toList]

/-! ### Outcomes -/

/-- The row of an upload. -/
def uploadedFile (environment : Environment) (world : World) (now : Date) (file : MultipartFile)
    (reconnectId encrypted : String) : FileInfo :=
  .createFileInfo now (uniqueFileName environment now file) (resolve environment encrypted)
    file.bytes.length reconnectId world.db.fileInfo.nextKey

/-- The upload directory is there or can be made, the name can be encrypted, the
row fits, the name and the path are new, and the bytes can be copied. -/
structure Storable (environment : Environment) (world : World) (now : Date)
    (file : MultipartFile) (reconnectId : String) (fault : Option UploadFault)
    (encrypted : String) : Prop where
  directory : world.disk.directory = false → ∀ message, fault ≠ some (.createDirectories message)
  named : encryptedFileName environment (uniqueFileName environment now file) = .ok encrypted
  fits : fit (uploadedFile environment world now file reconnectId encrypted) =
    some (uploadedFile environment world now file reconnectId encrypted)
  fresh : ∀ row ∈ world.db.fileInfo.rows, row.fileName ≠ uniqueFileName environment now file
  absent : world.disk.read (fileLocation environment encrypted) = none
  created : ∀ message, fault ≠ some (.copyBeforeCreate message)
  copied : ∀ count message, fault ≠ some (.copyAfter count message)

theorem clash_fileInfo {first second : FileInfo} :
    Clash first second ↔ first.fileName = second.fileName := by
  simp only [Clash, unique, ne_eq, reduceCtorEq, not_false_eq_true, Option.some.injEq, true_and]

/-- When the directory is there in the end, no failure hit its creation and no file has
changed. -/
theorem ensureDirectory_eq_ok {disk after : Disk} {fault : Option UploadFault}
    (ensured : ensureDirectory disk fault = .ok after) :
    (disk.directory = false → ∀ message, fault ≠ some (.createDirectories message)) ∧
      after.files = disk.files := by
  unfold ensureDirectory at ensured
  split at ensured
  · next there =>
      cases ensured
      exact ⟨fun missing => absurd there (by rw [missing]; exact Bool.false_ne_true), rfl⟩
  · split at ensured
    · cases ensured
    · next other =>
        cases ensured
        exact ⟨fun _ message => other message, rfl⟩

/-- The directory is there in the end when no failure hits its creation. -/
theorem exists_ensureDirectory {disk : Disk} {fault : Option UploadFault}
    (makes : disk.directory = false → ∀ message, fault ≠ some (.createDirectories message)) :
    ∃ after, ensureDirectory disk fault = .ok after := by
  unfold ensureDirectory
  split
  · exact ⟨_, rfl⟩
  · next missing =>
      split
      · next message => exact (makes (Bool.eq_false_iff.mpr missing) message rfl).elim
      · exact ⟨_, rfl⟩

/-- A copy succeeds only where there was no file and no failure. -/
theorem copyToDisk_eq_ok {environment : Environment} {disk after : Disk} {filePath : String}
    {bytes : List UInt8} {fault : Option UploadFault}
    (copied : copyToDisk environment disk filePath bytes fault = (.ok (), after)) :
    disk.read (environment.toAbsolutePath filePath) = none ∧
      (∀ message, fault ≠ some (.copyBeforeCreate message)) ∧
      ∀ count message, fault ≠ some (.copyAfter count message) := by
  unfold copyToDisk at copied
  dsimp only at copied
  split at copied
  · cases copied
  · cases copied
  · cases copied
  · next absent before after => exact ⟨absent, before, after⟩

/-- A copy that is interrupted leaves the bytes it has written. -/
theorem copyToDisk_interrupted {environment : Environment} {disk : Disk} {filePath : String}
    (absent : disk.read (environment.toAbsolutePath filePath) = none) (bytes : List UInt8)
    (count : Nat) (message : String) :
    copyToDisk environment disk filePath bytes (some (.copyAfter count message)) =
      (.error (cannotUpload message),
        disk.write (environment.toAbsolutePath filePath) (bytes.take count)) := by
  simp only [copyToDisk, absent]

/-- A failed copy leaves the directory as it was unless it stopped half-way. -/
theorem copyToDisk_eq_error {environment : Environment} {disk after : Disk} {filePath : String}
    {bytes : List UInt8} {fault : Option UploadFault} {exception : Exception}
    (failed : copyToDisk environment disk filePath bytes fault = (.error exception, after)) :
    after = disk ∨ (disk.read (environment.toAbsolutePath filePath) = none ∧
      ∃ count message, fault = some (.copyAfter count message)) := by
  unfold copyToDisk at failed
  dsimp only at failed
  split at failed
  · cases failed
    exact Or.inl rfl
  · cases failed
    exact Or.inl rfl
  · next count message absent =>
      cases failed
      exact Or.inr ⟨absent, count, message, rfl⟩
  · cases failed

/-- Where there is no file and no failure, the bytes get to the disk. -/
theorem copyToDisk_of_absent {environment : Environment} {disk : Disk} {filePath : String}
    {bytes : List UInt8} {fault : Option UploadFault}
    (absent : disk.read (environment.toAbsolutePath filePath) = none)
    (created : ∀ message, fault ≠ some (.copyBeforeCreate message))
    (copied : ∀ count message, fault ≠ some (.copyAfter count message)) :
    copyToDisk environment disk filePath bytes fault =
      (.ok (), disk.write (environment.toAbsolutePath filePath) bytes) := by
  unfold copyToDisk
  dsimp only
  split
  · next present =>
      rw [absent] at present
      cases present
  · next message _ => exact (created message rfl).elim
  · next count message _ => exact (copied count message rfl).elim
  · rfl

/-- A saved row is new under its name, as the columns keep both. -/
theorem saveFileInfo_eq_ok {db next : Database} {createdAt : Date}
    {fileName filePath reconnectId : String} {fileSize : Nat}
    (saved : db.saveFileInfo createdAt fileName filePath fileSize reconnectId = .ok next) :
    ∃ row, fit (FileInfo.createFileInfo createdAt fileName filePath fileSize reconnectId
        db.fileInfo.nextKey) = some row ∧
      (∀ other ∈ db.fileInfo.rows, other.fileName ≠ row.fileName) ∧
      ∃ after : Table FileInfo, next = { db with fileInfo := after } ∧
        after.rows = db.fileInfo.rows ++ [row] ∧ after.nextKey = db.fileInfo.nextKey + 1 := by
  obtain ⟨table, added, rfl⟩ := Database.store_eq_ok.mp saved
  obtain ⟨row, fits, free, rows, nextKey⟩ := Table.insert_eq_some added
  exact ⟨row, fits, fun other member same => free other member (clash_fileInfo.mpr same), table,
    rfl, rows, nextKey⟩

/-- A row is saved when its columns fit and its name is new. -/
theorem exists_saveFileInfo {db : Database} {createdAt : Date}
    {fileName filePath reconnectId : String} {fileSize : Nat}
    (fits : fit (FileInfo.createFileInfo createdAt fileName filePath fileSize reconnectId
        db.fileInfo.nextKey) =
      some (FileInfo.createFileInfo createdAt fileName filePath fileSize reconnectId
        db.fileInfo.nextKey))
    (fresh : ∀ row ∈ db.fileInfo.rows, row.fileName ≠ fileName) :
    ∃ next, db.saveFileInfo createdAt fileName filePath fileSize reconnectId = .ok next := by
  have free : ∀ row ∈ db.fileInfo.rows, ¬ Clash row (FileInfo.createFileInfo createdAt fileName
      filePath fileSize reconnectId db.fileInfo.nextKey) :=
    fun row member clash => fresh row member (clash_fileInfo.mp clash)
  have keyed (id : Long) : key (FileInfo.createFileInfo createdAt fileName filePath fileSize
      reconnectId id) = id := rfl
  obtain ⟨after, added⟩ : ∃ after, db.fileInfo.insert _ keyed = some after :=
    Table.insert_isSome fits free
  exact ⟨{ db with fileInfo := after }, Database.store_eq_ok.mpr ⟨after, added, rfl⟩⟩

/-- A file is addressed with a reconnectId that its column keeps as it is. -/
theorem varchar_uploadReconnectId {db : Database} {repeaterId : Option Long} {user : User}
    {reconnectId : String} (addressed : uploadReconnectId db repeaterId user = .ok reconnectId) :
    varchar reconnectId = some reconnectId := by
  cases repeaterId with
  | none =>
      simp only [uploadReconnectId] at addressed
      split at addressed
      · cases addressed
        decide
      · cases addressed
  | some repeaterId =>
      simp only [uploadReconnectId, bind_eq_ok, orElseThrow_eq_ok] at addressed
      obtain ⟨remotePc, found, holds⟩ := addressed
      have present := (Database.findByRepeaterId_eq_some.mp found).1
      have kept := (fit_remotePc_eq_self.mp (db.remotePc.rows_fit remotePc present)).2.2
      rw [holds] at kept
      obtain ⟨text, keeps, same⟩ := Option.map_eq_some_iff.mp kept
      rw [keeps, Option.some.inj same]

/-- An encrypted name is not empty, does not end with a blank, and is no shorter than
the name. -/
theorem encryptedFileName_eq_ok {environment : Environment} {fileName encrypted : String}
    (named : encryptedFileName environment fileName = .ok encrypted) (present : fileName ≠ "") :
    fileName.length ≤ encrypted.length ∧
      ∃ last, encrypted.toList.getLast? = some last ∧ last ≠ ' ' := by
  unfold encryptedFileName at named
  split at named
  · next text encrypts =>
      cases named
      obtain ⟨longer, visible⟩ := environment.encryptName_longer _ _ encrypts
      have length := Nat.le_trans (environment.uriEncode_longer fileName) longer
      refine ⟨length, ?_⟩
      have filled : encrypted.toList ≠ [] := by
        intro empty
        have none : encrypted.length = 0 := by rw [← String.length_toList, empty, List.length_nil]
        have some : 0 < fileName.length :=
          Nat.pos_of_ne_zero fun zero => present (String.length_eq_zero_iff.mp zero)
        omega
      refine ⟨_, List.getLast?_eq_some_getLast filled, fun blank => visible ?_⟩
      exact blank ▸ List.getLast_mem filled
  · cases named

/-- The columns keep the row of an upload as it is, when they keep it: a path that is
kept is short, and so is the name it encrypts. -/
theorem fit_uploadedFile {environment : Environment} {world : World} {now : Date}
    {file : MultipartFile} {reconnectId encrypted : String} {row : FileInfo}
    (address : varchar reconnectId = some reconnectId)
    (named : encryptedFileName environment (uniqueFileName environment now file) = .ok encrypted)
    (fits : fit (uploadedFile environment world now file reconnectId encrypted) = some row) :
    row = uploadedFile environment world now file reconnectId encrypted := by
  obtain ⟨fileName, filePath, kept, nameKept, pathKept, addressKept, rfl⟩ :=
    fit_fileInfo_eq_some.mp fits
  have marked : uniqueFileName environment now file ≠ "" := by
    intro empty
    have letters := congrArg String.toList empty
    simp only [uniqueFileName, String.toList_append, String.toList_empty,
      List.append_eq_nil_iff] at letters
    exact absurd letters.1.2 (by decide)
  obtain ⟨longer, last, ends, visible⟩ := encryptedFileName_eq_ok named marked
  have filled : encrypted.toList ≠ [] := by
    intro none
    rw [none] at ends
    cases ends
  have present : encrypted ≠ "" := fun same => filled (UnixPath.toList_eq_nil.mpr same)
  obtain ⟨before, path⟩ := UnixPath.suffix_resolve environment.uploadDir present
  have pathEnds : (resolve environment encrypted).toList.getLast? = some last := by
    rw [resolve, ← path, List.getLast?_append_of_ne_nil _ filled, ends]
  obtain ⟨samePath, shortPath⟩ := varchar_of_getLast pathKept pathEnds visible
  have shortName : (uniqueFileName environment now file).length ≤ 255 := by
    have length := congrArg List.length path
    rw [List.length_append, String.length_toList, String.length_toList] at length
    change before.length + encrypted.length = (resolve environment encrypted).length at length
    change (resolve environment encrypted).length ≤ 255 at shortPath
    omega
  obtain rfl := varchar_of_short nameKept shortName
  obtain rfl := samePath
  obtain rfl := Option.some.inj (address.symm.trans addressKept)
  rfl

variable {environment : Environment} {world : World} {now : Date} {file : MultipartFile}
  {repeaterId : Option Long} {user : User} {fault : Option UploadFault}
  {reconnectId encrypted : String}

/-- The copy of a file that could have been stored stops after its target was
created. -/
def Interrupted (environment : Environment) (world : World) (now : Date) (file : MultipartFile)
    (repeaterId : Option Long) (user : User) (fault : Option UploadFault) : Prop :=
  ∃ count message reconnectId encrypted, fault = some (.copyAfter count message) ∧
    uploadReconnectId world.db repeaterId user = .ok reconnectId ∧
    Storable environment world now file reconnectId none encrypted

/-- The upload of a storable file adds its row under its reconnectId and its
bytes at its path. -/
theorem uploadFile_stored (addressed : uploadReconnectId world.db repeaterId user = .ok reconnectId)
    (storable : Storable environment world now file reconnectId fault encrypted) :
    ∃ (after : Table FileInfo) (disk : Disk),
      uploadFile environment world now file repeaterId user fault =
        (.ok world.db.fileInfo.nextKey,
          { world with db := { world.db with fileInfo := after }, disk := disk }) ∧
      after.rows = world.db.fileInfo.rows ++
        [uploadedFile environment world now file reconnectId encrypted] ∧
      after.nextKey = world.db.fileInfo.nextKey + 1 ∧
      disk.files = (fileLocation environment encrypted, file.bytes) :: world.disk.files := by
  obtain ⟨disk, ensured⟩ := exists_ensureDirectory storable.directory
  obtain ⟨next, saved⟩ := exists_saveFileInfo storable.fits storable.fresh
  obtain ⟨row, fits, -, after, rfl, rows, nextKey⟩ := saveFileInfo_eq_ok saved
  obtain rfl := Option.some.inj (storable.fits.symm.trans fits)
  have files := (ensureDirectory_eq_ok ensured).2
  have absent : disk.read (environment.toAbsolutePath (resolve environment encrypted)) = none := by
    rw [toAbsolutePath_resolve, Disk.read, files]
    exact storable.absent
  have written :=
    @copyToDisk_of_absent environment disk _ file.bytes fault absent storable.created
      storable.copied
  rw [toAbsolutePath_resolve] at written
  refine ⟨after, disk.write (fileLocation environment encrypted) file.bytes, ?_, rows, nextKey, ?_⟩
  · simp only [uploadFile, addressed, ensured, storable.named, saved, written]
  · rw [Disk.write, files]

/-- An interrupted upload leaves the bytes it has copied. -/
theorem uploadFile_interrupted
    (interrupted : Interrupted environment world now file repeaterId user fault) :
    ∃ exception disk encrypted bytes,
      uploadFile environment world now file repeaterId user fault =
        (.error exception, { world with disk := disk }) ∧
      world.disk.read (fileLocation environment encrypted) = none ∧
      disk.read (fileLocation environment encrypted) = some bytes := by
  obtain ⟨count, message, reconnectId, encrypted, rfl, addressed, storable⟩ := interrupted
  have makes : world.disk.directory = false → ∀ text,
      some (UploadFault.copyAfter count message) ≠ some (.createDirectories text) :=
    fun _ text => by simp only [ne_eq, Option.some.injEq, reduceCtorEq, not_false_eq_true]
  obtain ⟨disk, ensured⟩ := exists_ensureDirectory makes
  obtain ⟨next, saved⟩ := exists_saveFileInfo storable.fits storable.fresh
  have absent : disk.read (environment.toAbsolutePath (resolve environment encrypted)) = none := by
    rw [toAbsolutePath_resolve, Disk.read, (ensureDirectory_eq_ok ensured).2]
    exact storable.absent
  have stopped := copyToDisk_interrupted absent file.bytes count message
  rw [toAbsolutePath_resolve] at stopped
  refine ⟨cannotUpload message, disk.write (fileLocation environment encrypted)
    (file.bytes.take count), encrypted, file.bytes.take count, ?_, storable.absent, ?_⟩
  · simp only [uploadFile, addressed, ensured, storable.named, saved, stopped]
  · rw [Disk.read_write, if_pos rfl]

/-- An upload is stored, or refused with the files as they were, or interrupted. -/
theorem uploadFile_cases (environment : Environment) (world : World) (now : Date)
    (file : MultipartFile) (repeaterId : Option Long) (user : User) (fault : Option UploadFault) :
    (∃ exception disk, uploadFile environment world now file repeaterId user fault =
        (.error exception, { world with disk := disk }) ∧
        (disk.files = world.disk.files ∨
          Interrupted environment world now file repeaterId user fault)) ∨
      ∃ reconnectId encrypted, uploadReconnectId world.db repeaterId user = .ok reconnectId ∧
        Storable environment world now file reconnectId fault encrypted := by
  cases addressed : uploadReconnectId world.db repeaterId user with
  | error exception =>
      exact Or.inl ⟨exception, world.disk, by simp only [uploadFile, addressed], Or.inl rfl⟩
  | ok reconnectId =>
  cases ensured : ensureDirectory world.disk fault with
  | error exception =>
      exact Or.inl ⟨exception, world.disk, by simp only [uploadFile, addressed, ensured],
        Or.inl rfl⟩
  | ok disk =>
  obtain ⟨directory, files⟩ := ensureDirectory_eq_ok ensured
  cases named : encryptedFileName environment (uniqueFileName environment now file) with
  | error exception =>
      exact Or.inl ⟨exception, disk, by simp only [uploadFile, addressed, ensured, named],
        Or.inl files⟩
  | ok encrypted =>
  cases saved : world.db.saveFileInfo now (uniqueFileName environment now file)
      (resolve environment encrypted) file.bytes.length reconnectId with
  | error exception =>
      exact Or.inl ⟨exception, disk, by simp only [uploadFile, addressed, ensured, named, saved],
        Or.inl files⟩
  | ok db =>
  obtain ⟨row, fits, fresh, after, rfl, rows, -⟩ := saveFileInfo_eq_ok saved
  obtain rfl := fit_uploadedFile (varchar_uploadReconnectId addressed) named fits
  rcases copied : copyToDisk environment disk (resolve environment encrypted) file.bytes fault with
    ⟨exception | ⟨⟩, stopped⟩
  · refine Or.inl ⟨exception, stopped,
      by simp only [uploadFile, addressed, ensured, named, saved, copied], ?_⟩
    rcases copyToDisk_eq_error copied with rfl | ⟨absent, count, message, stops⟩
    · exact Or.inl files
    · rw [toAbsolutePath_resolve, Disk.read, files] at absent
      refine Or.inr ⟨count, message, reconnectId, encrypted, stops, addressed, ?_⟩
      exact ⟨fun _ _ => (Option.some_ne_none _).symm, named, fits, fresh, absent,
        fun _ => (Option.some_ne_none _).symm, fun _ _ => (Option.some_ne_none _).symm⟩
  · obtain ⟨absent, created, whole⟩ := copyToDisk_eq_ok copied
    rw [toAbsolutePath_resolve, Disk.read, files] at absent
    exact Or.inr ⟨reconnectId, encrypted, rfl, directory, named, fits, fresh, absent, created,
      whole⟩

theorem mem_deleteFileInfo {db : Database} {seq : Long} {row : FileInfo} :
    row ∈ (db.deleteFileInfo seq).fileInfo.rows ↔ row ∈ db.fileInfo.rows ∧ row.seq ≠ seq :=
  Table.mem_deleteWhere

/-- A download answers with the file its row names, under the name that was
uploaded. -/
theorem downloadFile_eq_ok {db next : Database} {fileSeq : Long} {response : ResponseEntity} :
    downloadFile environment db fileSeq = .ok (response, next) ↔
      ∃ fileInfo encrypted, (fileInfo ∈ db.fileInfo.rows ∧ fileInfo.seq = fileSeq) ∧
        encryptedFileName environment fileInfo.fileName = .ok encrypted ∧
        response =
          { contentDisposition :=
              contentDisposition environment (withoutTimestamp fileInfo.fileName)
            body := { fileInfo := fileInfo, fileLocation := fileLocation environment encrypted } } ∧
        next = if fileInfo.reconnectId = adminRequest then db else db.deleteFileInfo fileSeq := by
  simp only [downloadFile, bind_eq_ok, orElseThrow_eq_ok, pure_eq_ok, Prod.mk.injEq,
    Table.findById_eq_some]
  constructor
  · rintro ⟨fileInfo, found, encrypted, named, rfl, rfl⟩
    exact ⟨fileInfo, encrypted, found, named, rfl, rfl⟩
  · rintro ⟨fileInfo, encrypted, found, named, rfl, rfl⟩
    exact ⟨fileInfo, found, encrypted, named, rfl, rfl⟩

/-- A deletion removes a distributed file together with its row. -/
theorem deleteDistributionFile_eq_ok {world next : World} {fileSeq : Long}
    {deleteFails : Option String}
    (deleted : deleteDistributionFile environment world fileSeq deleteFails = .ok next) :
    ∃ fileInfo encrypted, (fileInfo ∈ world.db.fileInfo.rows ∧ fileInfo.seq = fileSeq) ∧
      encryptedFileName environment fileInfo.fileName = .ok encrypted ∧
      next = { world with
        db := world.db.deleteFileInfo fileSeq
        disk := world.disk.delete (fileLocation environment encrypted) } := by
  simp only [deleteDistributionFile, bind_eq_ok, orElseThrow_eq_ok, pure_eq_ok,
    Table.findById_eq_some] at deleted
  obtain ⟨fileInfo, found, -, -, encrypted, named, -, -, -, -, rfl⟩ := deleted
  exact ⟨fileInfo, encrypted, found, named, rfl⟩

/-! ### The loop of the cleanup -/

/-- The rows of several files are deleted. -/
def deleteRows (db : Database) (fileInfos : List FileInfo) : Database :=
  fileInfos.foldl (fun db fileInfo => db.deleteFileInfo fileInfo.seq) db

/-- The files themselves are deleted. -/
def deleteFiles (environment : Environment) (disk : Disk) (fileInfos : List FileInfo) : Disk :=
  fileInfos.foldl (fun disk fileInfo =>
    disk.delete (environment.toAbsolutePath fileInfo.filePath)) disk

variable {cannotDelete : String → Bool} {fileInfos : List FileInfo} {db : Database} {disk : Disk}

/-- The loop runs to its end when every file can be deleted. -/
theorem cleanupLoop_of_deletable
    (deletable : ∀ fileInfo ∈ fileInfos, cannotDelete fileInfo.filePath = false) :
    cleanupLoop environment cannotDelete fileInfos db disk =
      (.ok (deleteRows db fileInfos), deleteFiles environment disk fileInfos) := by
  induction fileInfos generalizing db disk with
  | nil => rfl
  | cons fileInfo rest ih =>
      rw [cleanupLoop, deletable fileInfo List.mem_cons_self, if_neg Bool.false_ne_true]
      exact ih fun later member => deletable later (List.mem_cons_of_mem _ member)

/-- The loop throws when some file cannot be deleted. -/
theorem cleanupLoop_of_undeletable {fileInfo : FileInfo} (member : fileInfo ∈ fileInfos)
    (undeletable : cannotDelete fileInfo.filePath = true) :
    ∃ exception after, cleanupLoop environment cannotDelete fileInfos db disk =
      (.error exception, after) := by
  induction fileInfos generalizing db disk with
  | nil => cases member
  | cons first rest ih =>
      rw [cleanupLoop]
      split
      · exact ⟨_, disk, rfl⟩
      · next deletable =>
          rcases List.mem_cons.mp member with rfl | inside
          · exact (deletable undeletable).elim
          · exact ih inside

/-- The rows of no other file are deleted. -/
theorem mem_deleteRows {row : FileInfo} :
    row ∈ (deleteRows db fileInfos).fileInfo.rows ↔
      row ∈ db.fileInfo.rows ∧ ∀ fileInfo ∈ fileInfos, row.seq ≠ fileInfo.seq := by
  induction fileInfos generalizing db with
  | nil => simp only [deleteRows, List.foldl_nil, List.not_mem_nil, false_implies, implies_true,
      and_true]
  | cons fileInfo rest ih =>
      rw [deleteRows, List.foldl_cons, ← deleteRows, ih, mem_deleteFileInfo, List.forall_mem_cons,
        and_assoc]

/-- No other file is deleted. -/
theorem read_deleteFiles (environment : Environment) (path : String) :
    (deleteFiles environment disk fileInfos).read path =
      if ∃ fileInfo ∈ fileInfos, environment.toAbsolutePath fileInfo.filePath = path then none
      else disk.read path := by
  induction fileInfos generalizing disk with
  | nil => simp only [deleteFiles, List.foldl_nil, List.not_mem_nil, false_and, exists_false,
      ↓reduceIte]
  | cons fileInfo rest ih =>
      rw [deleteFiles, List.foldl_cons, ← deleteFiles, ih, Disk.read_delete]
      simp only [List.exists_mem_cons_iff, eq_comm (a := path)]
      by_cases later : ∃ other ∈ rest, environment.toAbsolutePath other.filePath = path
      · simp only [later, or_true, ↓reduceIte]
      · simp only [later, or_false, ↓reduceIte]

/-- A deletion gives no id free. -/
theorem deleteRows_nextKey : (deleteRows db fileInfos).fileInfo.nextKey = db.fileInfo.nextKey := by
  induction fileInfos generalizing db with
  | nil => rfl
  | cons fileInfo rest ih =>
      rw [deleteRows, List.foldl_cons, ← deleteRows, ih]
      rfl

/-- The tables other than that of files stay as they are. -/
theorem deleteRows_keeps {Part : Type} (part : Database → Part)
    (apart : ∀ db fileInfo, part { db with fileInfo := fileInfo } = part db) :
    part (deleteRows db fileInfos) = part db := by
  induction fileInfos generalizing db with
  | nil => rfl
  | cons fileInfo rest ih =>
      rw [deleteRows, List.foldl_cons, ← deleteRows, ih]
      exact apart db _

/-- Old are the rows from before the date that are not the administrator's. -/
theorem mem_expired {date : Date} {row : FileInfo} :
    row ∈ db.findAllByCreatedAtBeforeAndReconnectIdIsNot date adminRequest ↔
      row ∈ db.fileInfo.rows ∧ row.createdAt < date ∧ row.reconnectId ≠ adminRequest := by
  simp only [Database.findAllByCreatedAtBeforeAndReconnectIdIsNot, List.mem_filter,
    decide_eq_true_eq]

/-- The cleanup deletes every expired file, or rolls the rows back. -/
theorem cleanupOldFiles_cases (environment : Environment) (world : World) (daysAgo : Date)
    (cannotDelete : String → Bool) :
    let expired := world.db.findAllByCreatedAtBeforeAndReconnectIdIsNot daysAgo adminRequest
    ((∀ fileInfo ∈ expired, cannotDelete fileInfo.filePath = false) ∧
        cleanupOldFiles environment world daysAgo cannotDelete =
          (.ok (), { world with
            db := deleteRows world.db expired
            disk := deleteFiles environment world.disk expired })) ∨
      ((∃ fileInfo ∈ expired, cannotDelete fileInfo.filePath = true) ∧
        ∃ exception disk, cleanupOldFiles environment world daysAgo cannotDelete =
          (.error exception, { world with disk := disk })) := by
  intro expired
  unfold cleanupOldFiles
  by_cases deletable : ∀ fileInfo ∈ expired, cannotDelete fileInfo.filePath = false
  · exact Or.inl ⟨deletable, by rw [cleanupLoop_of_deletable deletable]⟩
  · push Not at deletable
    obtain ⟨fileInfo, member, undeletable⟩ := deletable
    rw [ne_eq, Bool.not_eq_false] at undeletable
    obtain ⟨exception, disk, thrown⟩ :=
      @cleanupLoop_of_undeletable environment _ _ world.db world.disk _ member undeletable
    exact Or.inr ⟨⟨fileInfo, member, undeletable⟩, exception, disk, by rw [thrown]⟩

end FileService

end MegaVnc
