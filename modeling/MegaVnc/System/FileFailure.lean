import MegaVnc.System.StoredFile

/-! # Files and failures

A row is rolled back with its transaction, a file is not. A download, a cleanup
or an upload that meets an I/O failure leaves the two apart exactly when one of
them was already changed for good.
-/

namespace MegaVnc

open Relational Fallible Application Transition
open FileService

variable {environment : Environment} {world : World}

/-! ### Downloads -/

/-- The file a row names, with its bytes. -/
def FileInfo.OnDisk (environment : Environment) (world : World) (fileInfo : FileInfo)
    (bytes : List UInt8) : Prop :=
  ∃ encrypted, encryptedFileName environment fileInfo.fileName = .ok encrypted ∧
    world.disk.read (fileLocation environment encrypted) = some bytes

/-- The whole content was written and nothing is left of the file, or both its
row and its bytes are still there. -/
def DeliveredOrKept (environment : Environment) (fileInfo : FileInfo) (bytes : List UInt8)
    (answer : Except Exception Reply) (next : World) : Prop :=
  ((∃ name outcome, answer = .ok (.download name bytes outcome)) ∧
      fileInfo ∉ next.db.fileInfo.rows ∧
      ∀ left, ¬ fileInfo.OnDisk environment next left) ∨
    (fileInfo ∈ next.db.fileInfo.rows ∧ fileInfo.OnDisk environment next bytes)

/-- A file is on the disk when its bytes are at its place. -/
theorem FileInfo.onDisk_iff {fileInfo : FileInfo} {encrypted : String} {bytes : List UInt8}
    (named : encryptedFileName environment fileInfo.fileName = .ok encrypted) :
    fileInfo.OnDisk environment world bytes ↔
      world.disk.read (fileLocation environment encrypted) = some bytes := by
  constructor
  · rintro ⟨other, same, read⟩
    rw [named] at same
    cases same
    exact read
  · intro read
    exact ⟨encrypted, named, read⟩

/-- A file that is not distributed is delivered or kept if and only if its
stream and its deletion meet no failure. -/
theorem deliveredOrKept_iff {fileInfo : FileInfo} {bytes : List UInt8}
    (present : fileInfo ∈ world.db.fileInfo.rows) (personal : fileInfo.reconnectId ≠ adminRequest)
    (onDisk : fileInfo.OnDisk environment world bytes) (fault : Option StreamFault) :
    DeliveredOrKept environment fileInfo bytes
        (perform environment world (.downloadFile fileInfo.seq fault)).1
        (perform environment world (.downloadFile fileInfo.seq fault)).2 ↔
      fault = none := by
  obtain ⟨encrypted, named, read⟩ := onDisk
  have gone : fileInfo ∉ (world.db.deleteFileInfo fileInfo.seq).fileInfo.rows :=
    fun left => (mem_deleteFileInfo.mp left).2 rfl
  rw [perform_downloadFile present named]
  simp only [DeliveredOrKept, FileInfo.onDisk_iff named, StreamingResponseBody.writeTo, personal,
    ↓reduceIte, gone, not_false_eq_true, true_and, false_and, or_false]
  rcases fault with _ | ⟨count, message⟩ | message
  · simp only [read, ↓reduceIte, Disk.read_delete, reduceCtorEq, not_false_eq_true,
      implies_true, and_true, iff_true]
    exact ⟨_, _, rfl⟩
  · simp only [read, Option.some.injEq, reduceCtorEq, iff_false]
    rintro ⟨-, missing⟩
    exact missing bytes rfl
  · simp only [read, Option.some.injEq, reduceCtorEq, iff_false]
    rintro ⟨-, missing⟩
    exact missing bytes rfl

/-- A file waits for the client of the base PC. -/
def sentToBase : World :=
  run (step .dev) (initial .dev) [.connectSettingRepeater (baseConnect "app-1"), sendToBase]

/-- The row of the file that was sent to the base PC. -/
def sentFile : FileInfo where
  seq := 1
  createdAt := 1704067260000
  fileName := "20240101_000000_report.txt"
  filePath := "/root/uploads/9LBw_vnhUWSt9uSUb2KUjKaU3V57vEIuyrnTz30VZnU="
  fileSize := 2
  reconnectId := "app-1"

theorem sentFile_mem : sentFile ∈ sentToBase.db.fileInfo.rows := by
  decide +kernel

theorem sentFile_onDisk : sentFile.OnDisk .dev sentToBase [104, 105] :=
  ⟨"9LBw_vnhUWSt9uSUb2KUjKaU3V57vEIuyrnTz30VZnU=", rfl, by decide +kernel⟩

theorem sentFile_deliveredOrKept_iff :
    DeliveredOrKept .dev sentFile [104, 105]
        (perform .dev sentToBase (.downloadFile sentFile.seq none)).1
        (perform .dev sentToBase (.downloadFile sentFile.seq none)).2 ↔
      (none : Option StreamFault) = none :=
  deliveredOrKept_iff sentFile_mem (by decide) sentFile_onDisk none

/-- The client of the base PC hangs up after one byte: no row leads to the file
any more. -/
theorem download_loses_file :
    ¬ ∀ (environment : Environment) (world : World) (fileInfo : FileInfo) (bytes : List UInt8)
        (fault : Option StreamFault), fileInfo ∈ world.db.fileInfo.rows →
      fileInfo.reconnectId ≠ adminRequest → fileInfo.OnDisk environment world bytes →
      DeliveredOrKept environment fileInfo bytes
        (perform environment world (.downloadFile fileInfo.seq fault)).1
        (perform environment world (.downloadFile fileInfo.seq fault)).2 := by
  intro delivers
  rcases delivers .dev sentToBase sentFile [104, 105] (some (.copyAfter 1 "Broken pipe"))
    sentFile_mem (by decide) sentFile_onDisk with ⟨-, -, missing⟩ | ⟨present, -⟩
  · exact missing [104, 105]
      ⟨"9LBw_vnhUWSt9uSUb2KUjKaU3V57vEIuyrnTz30VZnU=", rfl, by decide +kernel⟩
  · exact absurd present (by decide +kernel)

/-! ### Cleanups -/

/-- The file was sent before the day, and not to everyone. -/
def FileInfo.Expired (daysAgo : Date) (fileInfo : FileInfo) : Prop :=
  fileInfo.createdAt < daysAgo ∧ fileInfo.reconnectId ≠ adminRequest

/-- Only the rows that are not expired or whose file could not be deleted
remain, and none of them has lost its file. -/
structure RemovesAllItCan (environment : Environment) (world : World) (daysAgo : Date)
    (cannotDelete : String → Bool) (next : World) : Prop where
  rows : ∀ fileInfo, fileInfo ∈ next.db.fileInfo.rows ↔ fileInfo ∈ world.db.fileInfo.rows ∧
    (¬ fileInfo.Expired daysAgo ∨ cannotDelete fileInfo.filePath = true)
  files : ∀ fileInfo ∈ next.db.fileInfo.rows,
    world.disk.read (fileInfo.place environment) ≠ none →
      next.disk.read (fileInfo.place environment) ≠ none

/-- The file of a row is also the file of an expired row. -/
def SharesExpired (environment : Environment) (world : World) (daysAgo : Date)
    (fileInfo : FileInfo) : Prop :=
  world.disk.read (fileInfo.place environment) ≠ none ∧
    ∃ other ∈ world.db.fileInfo.rows, other.Expired daysAgo ∧
      other.place environment = fileInfo.place environment

/-- A cleanup leaves the rows that are not old. -/
theorem mem_deleteRows_expired {daysAgo : Date} {fileInfo : FileInfo} :
    fileInfo ∈ (deleteRows world.db (world.db.findAllByCreatedAtBeforeAndReconnectIdIsNot daysAgo
        adminRequest)).fileInfo.rows ↔
      fileInfo ∈ world.db.fileInfo.rows ∧ ¬ fileInfo.Expired daysAgo := by
  rw [mem_deleteRows]
  refine and_congr_right fun present => ?_
  constructor
  · intro apart expired
    exact apart fileInfo (mem_expired.mpr ⟨present, expired⟩) rfl
  · intro unexpired other member same
    obtain ⟨otherIn, expired⟩ := mem_expired.mp member
    obtain rfl : fileInfo = other := Table.eq_of_key_eq present otherIn same
    exact unexpired expired

/-- When the first expired file cannot be deleted, nothing is. -/
theorem cleanupOldFiles_of_none_deletable {daysAgo : Date} {cannotDelete : String → Bool}
    {fileInfo : FileInfo} (present : fileInfo ∈ world.db.fileInfo.rows)
    (expired : fileInfo.Expired daysAgo)
    (undeletable : ∀ other ∈ world.db.fileInfo.rows, other.Expired daysAgo →
      cannotDelete other.filePath = true) :
    (cleanupOldFiles environment world daysAgo cannotDelete).2 = world := by
  have member : fileInfo ∈ world.db.findAllByCreatedAtBeforeAndReconnectIdIsNot daysAgo
      adminRequest := mem_expired.mpr ⟨present, expired⟩
  unfold cleanupOldFiles
  cases order : world.db.findAllByCreatedAtBeforeAndReconnectIdIsNot daysAgo adminRequest with
  | nil =>
      rw [order] at member
      cases member
  | cons first rest =>
      obtain ⟨firstIn, firstExpired⟩ := mem_expired.mp (order ▸ List.mem_cons_self)
      rw [cleanupLoop, if_pos (undeletable first firstIn firstExpired)]

/-- When every expired file can be deleted, only a file with two rows is removed
although a row remains. -/
theorem removesAllItCan_of_deletable {daysAgo : Date} {cannotDelete : String → Bool}
    (deletable : ∀ fileInfo ∈ world.db.fileInfo.rows, fileInfo.Expired daysAgo →
      cannotDelete fileInfo.filePath = false) :
    RemovesAllItCan environment world daysAgo cannotDelete
        { world with
          db := deleteRows world.db
            (world.db.findAllByCreatedAtBeforeAndReconnectIdIsNot daysAgo adminRequest)
          disk := deleteFiles environment world.disk
            (world.db.findAllByCreatedAtBeforeAndReconnectIdIsNot daysAgo adminRequest) } ↔
      ∀ fileInfo ∈ world.db.fileInfo.rows, ¬ fileInfo.Expired daysAgo →
        ¬ SharesExpired environment world daysAgo fileInfo := by
  constructor
  · rintro removes fileInfo present unexpired ⟨there, other, otherIn, expired, same⟩
    refine removes.files fileInfo (mem_deleteRows_expired.mpr ⟨present, unexpired⟩) there ?_
    have doomed : ∃ other ∈ world.db.findAllByCreatedAtBeforeAndReconnectIdIsNot daysAgo
        adminRequest, environment.toAbsolutePath other.filePath = fileInfo.place environment :=
      ⟨other, mem_expired.mpr ⟨otherIn, expired⟩, same⟩
    rw [read_deleteFiles, if_pos doomed]
  · intro apart
    constructor
    · intro fileInfo
      rw [mem_deleteRows_expired]
      refine and_congr_right fun present => ⟨Or.inl, ?_⟩
      rintro (unexpired | fails) expired
      · exact unexpired expired
      · exact absurd fails (by simp [deletable fileInfo present expired])
    · intro fileInfo remains there
      obtain ⟨present, unexpired⟩ := mem_deleteRows_expired.mp remains
      have kept : ¬ ∃ other ∈ world.db.findAllByCreatedAtBeforeAndReconnectIdIsNot daysAgo
          adminRequest, environment.toAbsolutePath other.filePath =
            fileInfo.place environment := by
        rintro ⟨other, otherIn, same⟩
        obtain ⟨otherPresent, expired⟩ := mem_expired.mp otherIn
        exact apart fileInfo present unexpired ⟨there, other, otherPresent, expired, same⟩
      rwa [read_deleteFiles, if_neg kept]

/-- When the cleanup throws, every row remains, also that of a file which could
be deleted. -/
theorem removesAllItCan_of_thrown {daysAgo : Date} {cannotDelete : String → Bool} {disk : Disk}
    (removes : RemovesAllItCan environment world daysAgo cannotDelete { world with disk := disk }) :
    ∀ fileInfo ∈ world.db.fileInfo.rows, fileInfo.Expired daysAgo →
      cannotDelete fileInfo.filePath = true := by
  intro fileInfo inside outdated
  rcases (removes.rows fileInfo).mp inside with ⟨-, unexpired | fails⟩
  · exact (unexpired outdated).elim
  · exact fails

/-- When nothing can be deleted, what remains is what there was. -/
theorem removesAllItCan_self {daysAgo : Date} {cannotDelete : String → Bool}
    (undeletable : ∀ fileInfo ∈ world.db.fileInfo.rows, fileInfo.Expired daysAgo →
      cannotDelete fileInfo.filePath = true) :
    RemovesAllItCan environment world daysAgo cannotDelete world := by
  constructor
  · intro fileInfo
    refine ⟨fun inside => ⟨inside, ?_⟩, And.left⟩
    by_cases outdated : fileInfo.Expired daysAgo
    · exact Or.inr (undeletable fileInfo inside outdated)
    · exact Or.inl outdated
  · exact fun _ _ there => there

/-- A cleanup removes all it can if and only if the deletion fails for every
expired file or for none, and in the latter case no file is that of an expired
row and of another one. -/
theorem removesAllItCan_iff (environment : Environment) (world : World) (daysAgo : Date)
    (cannotDelete : String → Bool) :
    RemovesAllItCan environment world daysAgo cannotDelete
        (cleanupOldFiles environment world daysAgo cannotDelete).2 ↔
      (∀ fileInfo ∈ world.db.fileInfo.rows, fileInfo.Expired daysAgo →
          cannotDelete fileInfo.filePath = true) ∨
        (∀ fileInfo ∈ world.db.fileInfo.rows, fileInfo.Expired daysAgo →
            cannotDelete fileInfo.filePath = false) ∧
          ∀ fileInfo ∈ world.db.fileInfo.rows, ¬ fileInfo.Expired daysAgo →
            ¬ SharesExpired environment world daysAgo fileInfo := by
  rcases cleanupOldFiles_cases environment world daysAgo cannotDelete with
    ⟨listed, cleaned⟩ | ⟨⟨failing, member, undeletable⟩, exception, disk, thrown⟩
  · have deletable : ∀ fileInfo ∈ world.db.fileInfo.rows, fileInfo.Expired daysAgo →
        cannotDelete fileInfo.filePath = false :=
      fun fileInfo present expired => listed fileInfo (mem_expired.mpr ⟨present, expired⟩)
    rw [cleaned, removesAllItCan_of_deletable deletable]
    constructor
    · exact fun apart => Or.inr ⟨deletable, apart⟩
    · rintro (fails | ⟨-, apart⟩)
      · rintro fileInfo present - ⟨-, other, otherIn, expired, -⟩
        exact absurd (fails other otherIn expired) (by simp [deletable other otherIn expired])
      · exact apart
  · obtain ⟨present, expired⟩ := mem_expired.mp member
    constructor
    · intro removes
      rw [thrown] at removes
      exact Or.inl (removesAllItCan_of_thrown removes)
    · rintro (fails | ⟨deletable, -⟩)
      · rw [cleanupOldFiles_of_none_deletable present expired fails]
        exact removesAllItCan_self fails
      · exact absurd undeletable (by simp [deletable failing present expired])

/-- A second file waits for the client of the base PC. -/
def sentTwice : World :=
  step .dev sentToBase (.uploadFile 1704067260000
    { originalFilename := "notes.txt", bytes := [104, 111] } (some 100) kim none)

/-- Only the second file cannot be deleted: the first is gone, its row is not. -/
theorem cleanup_keeps_row_of_deleted_file :
    ¬ ∀ (environment : Environment) (world : World) (daysAgo : Date)
        (cannotDelete : String → Bool),
      RemovesAllItCan environment world daysAgo cannotDelete
        (cleanupOldFiles environment world daysAgo cannotDelete).2 := by
  intro removes
  have files := (removes .dev sentTwice 1706745600000 fun path =>
    path = "/root/uploads/9LBw_vnhUWSt9uSUb2KUjNG_5Joql1hnW6NvK5rOZ4Y=").files sentFile
  exact absurd (files (by decide +kernel) (by decide +kernel)) (by decide +kernel)

/-! ### Uploads -/

/-- A failed upload leaves nothing behind if and only if it is not interrupted
after its target was created. -/
theorem failedUpload_leavesNothing_iff (environment : Environment) (world : World) (now : Date)
    (file : MultipartFile) (repeaterId : Option Long) (user : User) (fault : Option UploadFault) :
    (∀ exception next, uploadFile environment world now file repeaterId user fault =
        (.error exception, next) → LeavesNothing world next) ↔
      ¬ Interrupted environment world now file repeaterId user fault := by
  constructor
  · intro leaves interrupted
    obtain ⟨exception, disk, encrypted, bytes, failed, absent, left⟩ :=
      uploadFile_interrupted interrupted
    have same := (leaves exception _ failed).files (fileLocation environment encrypted)
    rw [left, absent] at same
    cases same
  · exact fun whole exception next failed => leavesNothing_of_refused whole failed

/-- The disk is full after one byte of a file for the client of the base PC. -/
theorem upload_leaves_part :
    ¬ ∀ (environment : Environment) (world : World) (now : Date) (file : MultipartFile)
        (repeaterId : Option Long) (user : User) (fault : Option UploadFault)
        (exception : Exception) (next : World),
      uploadFile environment world now file repeaterId user fault = (.error exception, next) →
        LeavesNothing world next := by
  intro leaves
  have files := (leaves .dev sentToBase 1704067260000
    { originalFilename := "notes.txt", bytes := [104, 111] } (some 100) kim
    (some (.copyAfter 1 "No space left on device"))
    (.api .fileCannotUpload ": No space left on device") _ rfl).files
  exact absurd (files "/root/uploads/9LBw_vnhUWSt9uSUb2KUjNG_5Joql1hnW6NvK5rOZ4Y=")
    (by decide +kernel)

end MegaVnc
