import MegaVnc.System.FilePrivacy
import MegaVnc.System.Holder
import MegaVnc.System.StoredFile

/-! # Files for connected PCs

An upload to a PC is refused when its reconnectId is null. A PC without a client
has an empty reconnectId, never a null one, so the refusal never comes, and the
file is stored under a name no page asks for.
-/

namespace MegaVnc

open Relational Fallible Application Transition
open FileService (adminRequest uploadReconnectId uploadFile uploadFile_stored uploadFile_cases
  uploadedFile Storable findAllByReconnectId)

/-- A client has given the PC a reconnectId. -/
def RemotePc.Connected (remotePc : RemotePc) : Prop :=
  ∃ reconnectId, remotePc.reconnectId = some reconnectId ∧ reconnectId ≠ ""

/-- The page of a client with this reconnectId lists the file. -/
def FileInfo.ListedFor (db : Database) (reconnectId : String) (fileInfo : FileInfo) : Prop :=
  ∃ files, showFiles db (some reconnectId) = .files files ∧ fileInfo ∈ files

/-- An upload to a PC is accepted when the PC is connected, refused as
disassigned otherwise, and what it stores can be listed. -/
structure AcceptsConnected (environment : Environment) (world : World) (now : Date)
    (file : MultipartFile) (repeaterId : Long) (user : User) (fault : Option UploadFault) :
    Prop where
  connected : ∀ seq, (uploadFile environment world now file (some repeaterId) user fault).1 =
      .ok seq →
    ∃ remotePc, world.db.findByRepeaterId repeaterId = some remotePc ∧ remotePc.Connected
  refused : ∀ remotePc, world.db.findByRepeaterId repeaterId = some remotePc →
    ¬ remotePc.Connected →
    (uploadFile environment world now file (some repeaterId) user fault).1 =
        .error (.api .disassignedPc "") ∧
      LeavesNothing world (uploadFile environment world now file (some repeaterId) user fault).2
  listed : ∀ fileInfo ∈ (uploadFile environment world now file (some repeaterId) user
      fault).2.db.fileInfo.rows, fileInfo ∉ world.db.fileInfo.rows →
    ∃ reconnectId, blank reconnectId = false ∧ fileInfo.ListedFor (uploadFile environment world
      now file (some repeaterId) user fault).2.db reconnectId

variable {environment : Environment} {world : World} {db : Database} {remotePc : RemotePc}
  {now : Date} {file : MultipartFile} {repeaterId : Long} {user : User}
  {fault : Option UploadFault}

theorem blank_adminRequest : blank adminRequest = false := by decide

/-- A page lists the files for everyone and those of its reconnectId. -/
theorem FileInfo.listedFor_iff {reconnectId : String} (filled : blank reconnectId = false)
    {fileInfo : FileInfo} : fileInfo.ListedFor db reconnectId ↔ fileInfo ∈ db.fileInfo.rows ∧
      (fileInfo.reconnectId = adminRequest ∨ fileInfo.reconnectId = reconnectId) := by
  have mem_findAll (mark : String) : fileInfo ∈ db.findAllByReconnectIdOrderByCreatedAtDesc mark ↔
      fileInfo ∈ db.fileInfo.rows ∧ fileInfo.reconnectId = mark := by
    rw [Database.findAllByReconnectIdOrderByCreatedAtDesc, List.mem_insertionSort,
      List.mem_filter, decide_eq_true_eq]
  simp only [FileInfo.ListedFor, showFiles, filled, Bool.false_eq_true, ↓reduceIte,
    Reply.files.injEq, exists_eq_left', findAllByReconnectId, List.mem_append, mem_findAll]
  exact and_or_left.symm

/-- Some page lists a stored file exactly when its reconnectId is not blank. -/
theorem FileInfo.exists_listedFor_iff {fileInfo : FileInfo} (stored : fileInfo ∈ db.fileInfo.rows) :
    (∃ reconnectId, blank reconnectId = false ∧ fileInfo.ListedFor db reconnectId) ↔
      blank fileInfo.reconnectId = false := by
  constructor
  · rintro ⟨reconnectId, filled, shown⟩
    rcases ((listedFor_iff filled).mp shown).2 with everyone | own
    · rw [everyone, blank_adminRequest]
    · rw [own, filled]
  · intro filled
    exact ⟨fileInfo.reconnectId, filled, (listedFor_iff filled).mpr ⟨stored, Or.inr rfl⟩⟩

/-- A stored PC always names a reconnectId to store files under. -/
theorem Application.Reachable.addressed (reached : Reachable environment world) (user : User)
    (found : world.db.findByRepeaterId repeaterId = some remotePc) :
    ∃ reconnectId, remotePc.reconnectId = some reconnectId ∧
      uploadReconnectId world.db (some repeaterId) user = .ok reconnectId := by
  have present := (Database.findByRepeaterId_eq_some.mp found).1
  obtain ⟨reconnectId, held⟩ := Option.ne_none_iff_exists'.mp (reached.reconnectId_ne_none present)
  refine ⟨reconnectId, held, ?_⟩
  simp only [uploadReconnectId, found, orElseThrow, held, ok_bind]

/-- Past the reconnectId, an upload fails for other reasons. -/
theorem uploadFile_ne_disassigned {mark : String}
    (addressed : uploadReconnectId world.db (some repeaterId) user = .ok mark) :
    (uploadFile environment world now file (some repeaterId) user fault).1 ≠
      .error (.api .disassignedPc "") := by
  have notEnsured : FileService.ensureDirectory world.disk fault ≠
      .error (.api .disassignedPc "") := by
    unfold FileService.ensureDirectory
    intro failed
    split at failed
    · cases failed
    · split at failed <;> cases failed
  have notNamed (name : String) : FileService.encryptedFileName environment name ≠
      .error (.api .disassignedPc "") := by
    unfold FileService.encryptedFileName
    intro failed
    split at failed <;> cases failed
  have notSaved (name path : String) (size : Nat) :
      world.db.saveFileInfo now name path size mark ≠ .error (.api .disassignedPc "") := by
    unfold Database.saveFileInfo Database.store orElseThrow
    intro failed
    split at failed <;> cases failed
  have notCopied (disk : Disk) (path : String) :
      (FileService.copyToDisk environment disk path file.bytes fault).1 ≠
        .error (.api .disassignedPc "") := by
    unfold FileService.copyToDisk
    intro failed
    dsimp only at failed
    split at failed <;> cases failed
  intro failed
  simp only [uploadFile, addressed] at failed
  split at failed
  · next ensured =>
      cases failed
      exact notEnsured ensured
  · split at failed
    · next named =>
        cases failed
        exact notNamed _ named
    · split at failed
      · next saved =>
          cases failed
          exact notSaved _ _ _ saved
      · split at failed
        · next copied =>
            cases failed
            exact notCopied _ _ (congrArg Prod.fst copied)
        · cases failed

theorem uploadedFile_not_mem (mark encrypted : String) :
    uploadedFile environment world now file mark encrypted ∉ world.db.fileInfo.rows :=
  fun present => Int.lt_irrefl _ (world.db.fileInfo.keys_below _ present)

/-- What an upload adds can be listed unless it is stored under blanks. -/
theorem uploadFile_listed {mark encrypted : String}
    (addressed : uploadReconnectId world.db (some repeaterId) user = .ok mark)
    (storable : Storable environment world now file mark fault encrypted) :
    (∀ fileInfo ∈ (uploadFile environment world now file (some repeaterId) user
          fault).2.db.fileInfo.rows, fileInfo ∉ world.db.fileInfo.rows →
        ∃ reconnectId, blank reconnectId = false ∧ fileInfo.ListedFor (uploadFile environment
          world now file (some repeaterId) user fault).2.db reconnectId) ↔
      blank mark = false := by
  obtain ⟨after, disk, stored, rows, -⟩ := uploadFile_stored addressed storable
  have added : uploadedFile environment world now file mark encrypted ∈ after.rows :=
    rows ▸ List.mem_append_right _ (List.mem_singleton_self _)
  rw [stored]
  constructor
  · intro listed
    exact (FileInfo.exists_listedFor_iff added).mp
      (listed _ added (uploadedFile_not_mem mark encrypted))
  · intro filled fileInfo present new
    rcases List.mem_append.mp (rows ▸ present) with old | uploaded
    · exact absurd old new
    · rw [List.mem_singleton.mp uploaded]
      exact (FileInfo.exists_listedFor_iff added).mpr filled

/-- An upload meets the rule if and only if the PC is connected, and no file can
be stored for a reconnectId of blanks. -/
theorem acceptsConnected_iff (reached : Reachable environment world) :
    AcceptsConnected environment world now file repeaterId user fault ↔
      ∀ remotePc, world.db.findByRepeaterId repeaterId = some remotePc → remotePc.Connected ∧
        ∀ reconnectId, remotePc.reconnectId = some reconnectId → blank reconnectId = true →
          ∀ encrypted, ¬ Storable environment world now file reconnectId fault encrypted := by
  constructor
  · rintro ⟨-, refused, listed⟩ remotePc found
    obtain ⟨reconnectId, held, addressed⟩ := reached.addressed user found
    constructor
    · by_contra free
      exact uploadFile_ne_disassigned addressed (refused remotePc found free).1
    · intro mark marked blanks encrypted storable
      cases held.symm.trans marked
      have filled := (uploadFile_listed addressed storable).mp listed
      exact Bool.noConfusion (blanks.symm.trans filled)
  · intro meets
    have refuses : ∀ remotePc, world.db.findByRepeaterId repeaterId = some remotePc →
        ¬ remotePc.Connected → False :=
      fun remotePc found free => free (meets remotePc found).1
    rcases uploadFile_cases environment world now file (some repeaterId) user fault with
      ⟨exception, disk, failed, -⟩ | ⟨mark, encrypted, addressed, storable⟩
    · refine ⟨?_, fun remotePc found free => (refuses remotePc found free).elim, ?_⟩
      · intro seq accepted
        rw [failed] at accepted
        cases accepted
      · intro fileInfo present new
        rw [failed] at present
        exact absurd present new
    · obtain ⟨remotePc, found, held⟩ : ∃ remotePc,
          world.db.findByRepeaterId repeaterId = some remotePc ∧
            remotePc.reconnectId = some mark := by
        simpa only [uploadReconnectId, bind_eq_ok, orElseThrow_eq_ok] using addressed
      obtain ⟨connected, unblank⟩ := meets remotePc found
      refine ⟨fun seq accepted => ⟨remotePc, found, connected⟩,
        fun other present free => (refuses other present free).elim, ?_⟩
      apply (uploadFile_listed addressed storable).mpr
      exact Bool.eq_false_iff.mpr fun blanks => unblank mark held blanks encrypted storable

/-- A client of the base PC has named itself, and a file is sent to it. -/
theorem namedBase_acceptsConnected_iff :
    AcceptsConnected .dev namedBase 1704067260000
        { originalFilename := "report.txt", bytes := [104, 105] } 100 kim none ↔
      ∀ remotePc, namedBase.db.findByRepeaterId 100 = some remotePc → remotePc.Connected ∧
        ∀ reconnectId, remotePc.reconnectId = some reconnectId → blank reconnectId = true →
          ∀ encrypted, ¬ Storable .dev namedBase 1704067260000
            { originalFilename := "report.txt", bytes := [104, 105] } reconnectId none
            encrypted :=
  acceptsConnected_iff ⟨nameAndConnect, rfl⟩

/-- No client has ever connected to the base PC, and a file for it is stored. -/
theorem fresh_base_accepts :
    ¬ ∀ (environment : Environment) (world : World), Reachable environment world →
      ∀ (now : Date) (file : MultipartFile) (repeaterId : Long) (user : User)
        (fault : Option UploadFault),
        AcceptsConnected environment world now file repeaterId user fault := by
  intro accepts
  have meets := accepts .dev (initial .dev) ⟨[], rfl⟩ 1704067260000
    { originalFilename := "report.txt", bytes := [104, 105] } 100 kim none
  have found : (initial .dev).db.findByRepeaterId 100 = some freshBasePc := by decide +kernel
  have free : ¬ freshBasePc.Connected := by
    rintro ⟨reconnectId, held, filled⟩
    exact filled (Option.some.inj held).symm
  obtain ⟨mark, -, addressed⟩ :=
    @Reachable.addressed .dev (initial .dev) freshBasePc 100 ⟨[], rfl⟩ kim found
  exact uploadFile_ne_disassigned addressed (meets.refused freshBasePc found free).1

end MegaVnc
