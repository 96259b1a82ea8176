import MegaVnc.Foundation.Catalogue
import MegaVnc.System.FilePrivacy

/-! # Stored files come back unchanged

As long as no I/O failure occurs, the rows of `file_info` catalogue the upload
directory: the path a row keeps, the path computed from its name, and the path
its bytes were written to are one.
-/

namespace MegaVnc

open Relational Fallible Application Transition
open Catalogue (Catalogued Change)
open FileService

/-- The operation meets no I/O failure. -/
def Operation.faultFree : Operation → Bool
  | .uploadFile _ _ _ _ fault => fault.isNone
  | .downloadFile _ fault => fault.isNone
  | .deleteDistributionFile _ deleteFails => deleteFails.isNone
  | .cleanupOldFiles _ cannotDelete => cannotDelete.isEmpty
  | _ => true

/-- The path the row keeps is the one computed from its name. -/
def FileInfo.Named (environment : Environment) (fileInfo : FileInfo) : Prop :=
  ∃ encrypted, encryptedFileName environment fileInfo.fileName = .ok encrypted ∧
    fileInfo.filePath = resolve environment encrypted

/-- The rows of files as a set. -/
def World.index (world : World) : Set FileInfo :=
  {fileInfo | fileInfo ∈ world.db.fileInfo.rows}

variable {environment : Environment} {world : World} {operation : Operation}
  {operations : List Operation} {fileInfo : FileInfo}

/-- A file lies where its encrypted name says. -/
theorem place_of_named {encrypted : String}
    (named : encryptedFileName environment fileInfo.fileName = .ok encrypted)
    (kept : fileInfo.Named environment) :
    fileInfo.place environment = fileLocation environment encrypted := by
  obtain ⟨again, same, path⟩ := kept
  rw [named] at same
  cases same
  rw [FileInfo.place, path, toAbsolutePath_resolve]

/-! ### What an operation does to the files -/

/-- Without an I/O failure an operation stores the file of an upload, or removes
rows together with their files. -/
inductive FileEffect (environment : Environment) (world : World) (operation : Operation)
    (next : World) : Prop where
  | stored {now : Date} {file : MultipartFile} {repeaterId : Option Long} {user : User}
      {fault : Option UploadFault} {reconnectId encrypted : String}
      (uploads : operation = .uploadFile now file repeaterId user fault)
      (answer : (perform environment world operation).1 =
        .ok (.fileSeq world.db.fileInfo.nextKey))
      (named : encryptedFileName environment (uniqueFileName environment now file) =
        .ok encrypted)
      (absent : world.disk.read (fileLocation environment encrypted) = none)
      (rows : next.db.fileInfo.rows = world.db.fileInfo.rows ++
        [uploadedFile environment world now file reconnectId encrypted])
      (nextKey : next.db.fileInfo.nextKey = world.db.fileInfo.nextKey + 1)
      (files : next.disk.files = (fileLocation environment encrypted, file.bytes) ::
        world.disk.files)
  | removed (doomed : Set FileInfo)
      (rows : ∀ fileInfo, fileInfo ∈ next.db.fileInfo.rows ↔
        fileInfo ∈ world.db.fileInfo.rows ∧ fileInfo ∉ doomed)
      (nextKey : world.db.fileInfo.nextKey ≤ next.db.fileInfo.nextKey)
      (gone : ∀ fileInfo ∈ world.db.fileInfo.rows, fileInfo ∈ doomed →
        next.disk.read (fileInfo.place environment) = none)
      (elsewhere : ∀ path, (∀ fileInfo ∈ world.db.fileInfo.rows, fileInfo ∈ doomed →
        fileInfo.place environment ≠ path) → next.disk.read path = world.disk.read path)

/-- Where neither rows nor files change there is nothing to file. -/
theorem FileEffect.of_same {next : World} (rows : next.db.fileInfo.rows = world.db.fileInfo.rows)
    (nextKey : world.db.fileInfo.nextKey ≤ next.db.fileInfo.nextKey)
    (files : next.disk.SameFiles world.disk) : FileEffect environment world operation next :=
  .removed ∅ (fun fileInfo => by rw [rows]; simp only [Set.mem_empty_iff_false,
      not_false_eq_true, and_true]) nextKey (fun _ _ inside => inside.elim) fun path _ => files path

/-- One row is removed with its file. -/
theorem FileEffect.of_delete {encrypted : String} (present : fileInfo ∈ world.db.fileInfo.rows)
    (place : fileInfo.place environment = fileLocation environment encrypted) :
    FileEffect environment world operation
      { world with
        db := world.db.deleteFileInfo fileInfo.seq
        disk := world.disk.delete (fileLocation environment encrypted) } := by
  refine .removed {fileInfo} (fun other => ?_) (Int.le_refl _) (fun other _ doomed => ?_)
    fun path apart => ?_
  · refine mem_deleteFileInfo.trans (and_congr_right fun otherIn => not_congr ?_)
    constructor
    · exact fun sameSeq => Table.eq_of_key_eq otherIn present sameSeq
    · intro same
      rw [Set.mem_singleton_iff.mp same]
  · rw [Set.mem_singleton_iff.mp doomed, place, Disk.read_delete, if_pos rfl]
  · rw [Disk.read_delete, if_neg fun same => apart fileInfo present rfl (place.trans same.symm)]

/-- An upload without a failure files one row with its file. -/
theorem uploadFile_effect {now : Date} {file : MultipartFile} {repeaterId : Option Long}
    {user : User} :
    FileEffect environment world (.uploadFile now file repeaterId user none)
      (step environment world (.uploadFile now file repeaterId user none)) := by
  change FileEffect _ _ _ (uploadFile environment world now file repeaterId user none).2
  rcases uploadFile_cases environment world now file repeaterId user none with
    ⟨exception, disk, refused, files | interrupted⟩ | ⟨reconnectId, encrypted, addressed, storable⟩
  · rw [refused]
    exact .of_same rfl (Int.le_refl _) fun path => by rw [Disk.read, Disk.read, files]
  · obtain ⟨count, message, _, _, stops, -⟩ := interrupted
    cases stops
  · obtain ⟨after, disk, stored, rows, nextKey, files⟩ := uploadFile_stored addressed storable
    have answer : (perform environment world (.uploadFile now file repeaterId user none)).1 =
        .ok (.fileSeq world.db.fileInfo.nextKey) := by
      change (uploadFile environment world now file repeaterId user none).1.map _ = _
      rw [stored]
      rfl
    rw [stored]
    exact .stored rfl answer storable.named storable.absent rows nextKey files

/-- The answer to a download, and what it leaves. -/
theorem perform_downloadFile {encrypted : String} (present : fileInfo ∈ world.db.fileInfo.rows)
    (named : encryptedFileName environment fileInfo.fileName = .ok encrypted)
    (fault : Option StreamFault) :
    perform environment world (.downloadFile fileInfo.seq fault) =
      let body : StreamingResponseBody :=
        { fileInfo := fileInfo, fileLocation := fileLocation environment encrypted }
      let (bytes, outcome, disk) := body.writeTo world.disk fault
      (.ok (.download (contentDisposition environment (withoutTimestamp fileInfo.fileName))
          bytes outcome),
        { world with
          db := if fileInfo.reconnectId = adminRequest then world.db
            else world.db.deleteFileInfo fileInfo.seq
          disk := disk }) := by
  have downloaded := downloadFile_eq_ok.mpr
    ⟨fileInfo, encrypted, ⟨present, rfl⟩, named, rfl, rfl⟩
  simp only [perform, Application.downloadFile, downloaded]

/-- A download without a failure takes away the row and the file of an app, and leaves those
of the administrator. -/
theorem downloadFile_effect {fileSeq : Long}
    (named : ∀ fileInfo ∈ world.db.fileInfo.rows, fileInfo.Named environment)
    (onDisk : ∀ fileInfo ∈ world.db.fileInfo.rows,
      world.disk.read (fileInfo.place environment) ≠ none) :
    FileEffect environment world (.downloadFile fileSeq none)
      (step environment world (.downloadFile fileSeq none)) := by
  cases downloaded : FileService.downloadFile environment world.db fileSeq with
  | error exception =>
      simp only [step, perform, Application.downloadFile, downloaded]
      exact .of_same rfl (Int.le_refl _) fun _ => rfl
  | ok answer =>
      obtain ⟨fileInfo, encrypted, ⟨present, rfl⟩, encrypts, -, -⟩ :=
        downloadFile_eq_ok.mp downloaded
      have place := place_of_named encrypts (named fileInfo present)
      obtain ⟨bytes, read⟩ := Option.ne_none_iff_exists'.mp (onDisk fileInfo present)
      rw [place] at read
      rw [step, perform_downloadFile present encrypts]
      simp only [StreamingResponseBody.writeTo, read]
      by_cases distributed : fileInfo.reconnectId = adminRequest
      · simp only [distributed, ↓reduceIte]
        exact .of_same rfl (Int.le_refl _) fun _ => rfl
      · simp only [distributed, ↓reduceIte]
        exact .of_delete present place

/-- A deletion takes away the row and the file. -/
theorem deleteDistributionFile_effect {fileSeq : Long} {deleteFails : Option String}
    (named : ∀ fileInfo ∈ world.db.fileInfo.rows, fileInfo.Named environment) :
    FileEffect environment world (.deleteDistributionFile fileSeq deleteFails)
      (step environment world (.deleteDistributionFile fileSeq deleteFails)) := by
  simp only [step, perform]
  split
  · next deleted =>
      obtain ⟨fileInfo, encrypted, ⟨present, rfl⟩, encrypts, rfl⟩ :=
        deleteDistributionFile_eq_ok deleted
      exact .of_delete present (place_of_named encrypts (named fileInfo present))
  · exact .of_same rfl (Int.le_refl _) fun _ => rfl

/-- A cleanup takes away the old rows and their files. -/
theorem cleanupOldFiles_effect {daysAgo : Date} :
    FileEffect environment world (.cleanupOldFiles daysAgo [])
      (step environment world (.cleanupOldFiles daysAgo [])) := by
  change FileEffect _ _ _ (cleanupOldFiles environment world daysAgo _).2
  rcases cleanupOldFiles_cases environment world daysAgo (fun path => path ∈ ([] : List String))
    with ⟨-, cleaned⟩ | ⟨⟨failing, -, undeletable⟩, -⟩
  · rw [cleaned]
    refine .removed {fileInfo | fileInfo ∈
      world.db.findAllByCreatedAtBeforeAndReconnectIdIsNot daysAgo adminRequest}
      (fun fileInfo => ?_) (Int.le_of_eq ?_) (fun fileInfo _ doomed => ?_) fun path apart => ?_
    · refine mem_deleteRows.trans (and_congr_right fun present => ?_)
      constructor
      · exact fun distinct expired => distinct fileInfo expired rfl
      · intro unexpired other expired same
        obtain rfl : fileInfo = other :=
          Table.eq_of_key_eq present (mem_expired.mp expired).1 same
        exact unexpired expired
    · exact deleteRows_nextKey.symm
    · have listed : ∃ other ∈ world.db.findAllByCreatedAtBeforeAndReconnectIdIsNot daysAgo
          adminRequest, environment.toAbsolutePath other.filePath = fileInfo.place environment :=
        ⟨fileInfo, doomed, rfl⟩
      rw [read_deleteFiles, if_pos listed]
    · have free : ¬ ∃ other ∈ world.db.findAllByCreatedAtBeforeAndReconnectIdIsNot daysAgo
          adminRequest, environment.toAbsolutePath other.filePath = path := by
        intro listed
        obtain ⟨other, expired, same⟩ := listed
        exact apart other (mem_expired.mp expired).1 expired same
      rw [read_deleteFiles, if_neg free]
  · simp only [List.not_mem_nil, decide_false, Bool.false_eq_true] at undeletable

/-- What an operation that is not about files does to them. -/
theorem other_effect (other : operation.isFileTransfer = false) :
    FileEffect environment world operation (step environment world operation) := by
  have files : (step environment world operation).disk.SameFiles world.disk := by
    rw [step_disk other]
    exact fun _ => rfl
  by_cases untouched : TableName.fileInfo ∉ operation.writes
  · have same : (step environment world operation).db.fileInfo = world.db.fileInfo :=
      step_same untouched
    exact .of_same (congrArg Table.rows same) (Int.le_of_eq (congrArg Table.nextKey same).symm)
      files
  · cases operation with
    | dataLoader lostKeys =>
        have same := MegaVncApplication.dataLoader_keeps Database.fileInfo (fun _ _ => rfl)
          (fun _ _ => rfl) (fun _ _ => rfl) environment.encodePassword_fits
          (world.db.skipKeys lostKeys)
        have rows := congrArg Table.rows same
        have nextKey := congrArg Table.nextKey same
        change (step environment world (.dataLoader lostKeys)).db.fileInfo.nextKey =
          world.db.fileInfo.nextKey + lostKeys at nextKey
        exact .of_same rows (by omega) files
    | uploadFile now file repeaterId user fault => cases other
    | downloadFile fileSeq fault => cases other
    | deleteDistributionFile fileSeq deleteFails => cases other
    | cleanupOldFiles daysAgo cannotDelete => cases other
    | _ => simp [Operation.writes] at untouched

/-! ### The catalogue -/

/-- Every row keeps the path of its name, and the rows catalogue the directory. -/
structure Shelved (environment : Environment) (world : World) : Prop where
  named : ∀ fileInfo ∈ world.db.fileInfo.rows, fileInfo.Named environment
  catalogued : Catalogued (FileInfo.place environment) world.index world.disk.read

/-- Without failures each operation changes rows and files together. -/
theorem step_fileEffect (shelved : Shelved environment world)
    (faultFree : operation.faultFree = true) :
    FileEffect environment world operation (step environment world operation) := by
  cases operation with
  | uploadFile now file repeaterId user fault =>
      obtain rfl := Option.isNone_iff_eq_none.mp faultFree
      exact uploadFile_effect
  | downloadFile fileSeq fault =>
      obtain rfl := Option.isNone_iff_eq_none.mp faultFree
      exact downloadFile_effect shelved.named fun fileInfo present =>
        shelved.catalogued.mapsTo present
  | deleteDistributionFile fileSeq deleteFails => exact deleteDistributionFile_effect shelved.named
  | cleanupOldFiles daysAgo cannotDelete =>
      obtain rfl := List.isEmpty_iff.mp faultFree
      exact cleanupOldFiles_effect
  | _ => exact other_effect rfl

theorem uploadedFile_place {now : Date} {file : MultipartFile} {reconnectId encrypted : String} :
    (uploadedFile environment world now file reconnectId encrypted).place environment =
      fileLocation environment encrypted :=
  toAbsolutePath_resolve environment encrypted

/-- Such an effect is a change of a catalogue. -/
theorem FileEffect.change {next : World} (effect : FileEffect environment world operation next) :
    Change (FileInfo.place environment) world.index world.disk.read next.index next.disk.read := by
  cases effect with
  | @stored now file repeaterId user fault reconnectId encrypted uploads answer named absent rows
      nextKey files =>
      have read (path : String) : next.disk.read path =
          if path = fileLocation environment encrypted then some file.bytes
          else world.disk.read path := by
        have written := world.disk.read_write (fileLocation environment encrypted) file.bytes path
        rwa [Disk.read, Disk.write, ← files] at written
      refine .added (uploadedFile environment world now file reconnectId encrypted) file.bytes
        ?_ ?_ ?_ fun path different => ?_
      · rw [uploadedFile_place]
        exact absent
      · ext fileInfo
        simp only [World.index, rows, List.mem_append, List.mem_singleton, Set.mem_ofPred_eq,
          Set.mem_insert_iff, or_comm]
      · rw [uploadedFile_place, read, if_pos rfl]
      · rw [uploadedFile_place] at different
        rw [read, if_neg different]
  | removed doomed rows nextKey gone elsewhere =>
      exact .removed doomed (Set.ext rows) gone elsewhere

/-- What an operation does to the files keeps every file with its row. -/
theorem FileEffect.shelved {next : World} (effect : FileEffect environment world operation next)
    (shelved : Shelved environment world) : Shelved environment next := by
  refine ⟨fun fileInfo present => ?_, effect.change.catalogued shelved.catalogued⟩
  cases effect with
  | stored uploads answer named absent rows nextKey files =>
      rw [rows] at present
      rcases List.mem_append.mp present with old | new
      · exact shelved.named fileInfo old
      · rw [List.mem_singleton.mp new]
        exact ⟨_, named, rfl⟩
  | removed doomed rows nextKey gone elsewhere =>
      exact shelved.named fileInfo ((rows fileInfo).mp present).1

theorem initial_fileInfo (environment : Environment) :
    (initial environment).db.fileInfo.rows = [] :=
  MegaVncApplication.dataLoader_keeps (fun db => db.fileInfo.rows) (fun _ _ => rfl)
    (fun _ _ => rfl) (fun _ _ => rfl) environment.encodePassword_fits (Database.empty.skipKeys 0)

/-- After the first start nothing is out of place. -/
theorem shelved_initial (environment : Environment) :
    Shelved environment (initial environment) := by
  have noRows := initial_fileInfo environment
  have noFiles : (initial environment).disk.read = fun _ => none := rfl
  refine ⟨fun fileInfo present => ?_, ?_⟩
  · rw [noRows] at present
    cases present
  · have index : (initial environment).index = ∅ := by
      ext fileInfo
      simp only [World.index, noRows, List.not_mem_nil, Set.mem_ofPred_eq, Set.mem_empty_iff_false]
    rw [index, noFiles]
    exact Set.bijOn_empty_iff_right.mpr (Set.eq_empty_of_forall_notMem fun _ there => there rfl)

/-- Without failures nothing gets out of place. -/
theorem shelved_run (start : Shelved environment world)
    (intact : ∀ operation ∈ operations, operation.faultFree = true) :
    Shelved environment (run (step environment) world operations) := by
  have along : Along (step environment) (fun _ operation => operation.faultFree = true) world
      operations := .of_forall fun _ => intact
  exact along.run_invariant (Shelved environment)
    (fun _ _ faultFree shelved => (step_fileEffect shelved faultFree).shelved shelved) start

/-! ### What a run keeps of an upload -/

/-- The operation is an upload of the file that was answered with `seq`. -/
def Operation.Stores (environment : Environment) (world : World) (seq : Long)
    (file : MultipartFile) (operation : Operation) : Prop :=
  ∃ now repeaterId user fault, operation = .uploadFile now file repeaterId user fault ∧
    (perform environment world operation).1 = .ok (.fileSeq seq)

/-- Some operation of the run has stored the file under `seq`. -/
def StoredIn (environment : Environment) (start : World) (operations : List Operation)
    (seq : Long) (file : MultipartFile) : Prop :=
  ∃ before operation after, operations = before ++ operation :: after ∧
    operation.Stores environment (run (step environment) start before) seq file

/-- If the row of a file is still there, so are its name and its bytes. -/
structure Held (environment : Environment) (seq : Long) (file : MultipartFile) (world : World) :
    Prop where
  shelved : Shelved environment world
  drawn : seq < world.db.fileInfo.nextKey
  name : ∀ fileInfo ∈ world.db.fileInfo.rows, fileInfo.seq = seq →
    ∃ now, fileInfo.fileName = uniqueFileName environment now file
  bytes : ∀ fileInfo ∈ world.db.fileInfo.rows, fileInfo.seq = seq →
    world.disk.read (fileInfo.place environment) = some file.bytes

/-- A file is held until it is deleted or delivered. -/
theorem Held.step {seq : Long} {file : MultipartFile} (held : Held environment seq file world)
    (faultFree : operation.faultFree = true) :
    Held environment seq file (step environment world operation) := by
  have effect := step_fileEffect held.shelved faultFree
  have shelved := effect.shelved held.shelved
  have older (fileInfo : FileInfo) (sameSeq : fileInfo.seq = seq)
      (present : fileInfo ∈ (Application.step environment world operation).db.fileInfo.rows) :
      fileInfo ∈ world.db.fileInfo.rows := by
    cases effect with
    | stored uploads answer named absent rows nextKey files =>
        rw [rows] at present
        rcases List.mem_append.mp present with old | new
        · exact old
        · have drawn := held.drawn
          rw [← sameSeq, List.mem_singleton.mp new] at drawn
          exact (Int.lt_irrefl _ drawn).elim
    | removed doomed rows nextKey gone elsewhere => exact ((rows fileInfo).mp present).1
  have nextKey : world.db.fileInfo.nextKey ≤
      (Application.step environment world operation).db.fileInfo.nextKey := by
    cases effect with
    | stored uploads answer named absent rows nextKey files =>
        rw [nextKey]
        exact Int.le_add_one (Int.le_refl _)
    | removed doomed rows nextKey gone elsewhere => exact nextKey
  refine ⟨shelved, Int.lt_of_lt_of_le held.drawn nextKey, fun fileInfo present sameSeq => ?_,
    fun fileInfo present sameSeq => ?_⟩
  · exact held.name fileInfo (older fileInfo sameSeq present) sameSeq
  · have before := older fileInfo sameSeq present
    rw [effect.change.item_eq held.shelved.catalogued before present]
    exact held.bytes fileInfo before sameSeq

/-- An accepted upload holds its file. -/
theorem held_of_stores {seq : Long} {file : MultipartFile} (shelved : Shelved environment world)
    (faultFree : operation.faultFree = true)
    (stores : operation.Stores environment world seq file) :
    Held environment seq file (step environment world operation) := by
  have effect := step_fileEffect shelved faultFree
  have next := effect.shelved shelved
  obtain ⟨now, repeaterId, user, fault, rfl, answered⟩ := stores
  change (uploadFile environment world now file repeaterId user fault).1.map _ = _ at answered
  rcases uploadFile_cases environment world now file repeaterId user fault with
    ⟨exception, disk, refused, -⟩ | ⟨reconnectId, encrypted, addressed, storable⟩
  · rw [refused] at answered
    cases answered
  · obtain ⟨after, disk, stored, rows, nextKey, files⟩ := uploadFile_stored addressed storable
    rw [stored] at answered
    cases answered
    have stepped : step environment world (.uploadFile now file repeaterId user fault) =
        { world with db := { world.db with fileInfo := after }, disk := disk } :=
      congrArg Prod.snd stored
    rw [stepped] at next ⊢
    have only (fileInfo : FileInfo) (present : fileInfo ∈ after.rows)
        (sameSeq : fileInfo.seq = world.db.fileInfo.nextKey) :
        fileInfo = uploadedFile environment world now file reconnectId encrypted := by
      rw [rows] at present
      rcases List.mem_append.mp present with old | new
      · have drawn : fileInfo.seq < world.db.fileInfo.nextKey :=
          world.db.fileInfo.keys_below fileInfo old
        rw [sameSeq] at drawn
        exact (Int.lt_irrefl _ drawn).elim
      · exact List.mem_singleton.mp new
    refine ⟨next, ?_, fun fileInfo present sameSeq => ?_, fun fileInfo present sameSeq => ?_⟩
    · change world.db.fileInfo.nextKey < after.nextKey
      rw [nextKey]
      exact Int.lt_succ _
    · rw [only fileInfo present sameSeq]
      exact ⟨now, rfl⟩
    · rw [only fileInfo present sameSeq, uploadedFile_place]
      change disk.files.lookup _ = _
      rw [files, List.lookup_cons_self]

/-- A row of a run was stored in it. -/
theorem exists_storedIn (start : Shelved environment world)
    (intact : ∀ operation ∈ operations, operation.faultFree = true)
    (absent : fileInfo ∉ world.db.fileInfo.rows)
    (present : fileInfo ∈ (run (step environment) world operations).db.fileInfo.rows) :
    ∃ file, StoredIn environment world operations fileInfo.seq file := by
  obtain ⟨before, operation, after, rfl, missing, stored⟩ :=
    @exists_step_of_run _ _ (step environment) world
      (fun state => fileInfo ∈ state.db.fileInfo.rows) _ absent present
  have shelved := shelved_run start fun earlier member =>
    intact earlier (List.mem_append_left _ member)
  have effect := step_fileEffect shelved
    (intact operation (List.mem_append_right _ List.mem_cons_self))
  cases effect with
  | @stored now file repeaterId user fault reconnectId encrypted uploads answer named free rows
      nextKey files =>
      rw [rows] at stored
      rcases List.mem_append.mp stored with old | new
      · exact (missing old).elim
      · refine ⟨file, before, operation, after, rfl, now, repeaterId, user, fault, uploads, ?_⟩
        rw [answer, List.mem_singleton.mp new]
        rfl
  | removed doomed rows nextKey gone elsewhere => exact (missing ((rows fileInfo).mp stored).1).elim

/-- A row that was stored in a run holds its file at the end of it. -/
theorem held_of_storedIn {seq : Long} {file : MultipartFile} (start : Shelved environment world)
    (intact : ∀ operation ∈ operations, operation.faultFree = true)
    (storedIn : StoredIn environment world operations seq file) :
    Held environment seq file (run (step environment) world operations) := by
  obtain ⟨before, operation, after, rfl, stores⟩ := storedIn
  have shelved := shelved_run start fun earlier member =>
    intact earlier (List.mem_append_left _ member)
  have held := held_of_stores shelved
    (intact operation (List.mem_append_right _ List.mem_cons_self)) stores
  rw [run_append, run_cons]
  have along : Along (step environment) (fun _ later => later.faultFree = true)
      (step environment (run (step environment) world before) operation) after :=
    .of_forall fun _ later member =>
      intact later (List.mem_append_right _ (List.mem_cons_of_mem _ member))
  exact along.run_invariant (Held environment seq file)
    (fun _ _ faultFree held => held.step faultFree) held

/-- A held file is downloaded under the name it was uploaded with. -/
theorem Held.download {file : MultipartFile} (held : Held environment fileInfo.seq file world)
    (stamped : ∀ now, IsTimestamp (environment.formatTimestamp now).toList)
    (present : fileInfo ∈ world.db.fileInfo.rows) :
    (perform environment world (.downloadFile fileInfo.seq none)).1 =
      .ok (.download (contentDisposition environment (environment.cleanPath file.originalFilename))
        file.bytes (.ok ())) := by
  obtain ⟨encrypted, encrypts, path⟩ := held.shelved.named fileInfo present
  obtain ⟨now, unique⟩ := held.name fileInfo present rfl
  have place := place_of_named encrypts (held.shelved.named fileInfo present)
  have read := held.bytes fileInfo present rfl
  rw [place] at read
  have name : withoutTimestamp fileInfo.fileName = environment.cleanPath file.originalFilename := by
    rw [unique]
    exact withoutTimestamp_of_isTimestamp _ (stamped now)
  rw [perform_downloadFile present encrypts, name]
  simp only [StreamingResponseBody.writeTo, read]
  split <;> rfl

/-- The rows, and the files with their contents, are those of before. -/
structure LeavesNothing (world next : World) : Prop where
  rows : next.db.fileInfo.rows = world.db.fileInfo.rows
  files : next.disk.SameFiles world.disk

/-- An upload that is refused before its copy leaves nothing. -/
theorem leavesNothing_of_refused {now : Date} {file : MultipartFile} {repeaterId : Option Long}
    {user : User} {fault : Option UploadFault} {exception : Exception} {next : World}
    (whole : ¬ Interrupted environment world now file repeaterId user fault)
    (refused : uploadFile environment world now file repeaterId user fault =
      (.error exception, next)) : LeavesNothing world next := by
  rcases uploadFile_cases environment world now file repeaterId user fault with
    ⟨thrown, disk, failed, files | interrupted⟩ | ⟨reconnectId, encrypted, addressed, storable⟩
  · rw [failed] at refused
    cases refused
    exact ⟨rfl, fun path => by rw [Disk.read, Disk.read, files]⟩
  · exact (whole interrupted).elim
  · obtain ⟨after, disk, stored, -⟩ := uploadFile_stored addressed storable
    rw [stored] at refused
    cases refused

/-- The rows and the files correspond, a refused upload changes neither, and a
row that is present was stored by an upload whose file it gives back. -/
structure KeepsFiles (environment : Environment) (operations : List Operation) (world : World) :
    Prop where
  paired : Set.BijOn (FileInfo.place environment) {fileInfo | fileInfo ∈ world.db.fileInfo.rows}
    {path | world.disk.read path ≠ none}
  refused : ∀ now file repeaterId user exception next,
    uploadFile environment world now file repeaterId user none = (.error exception, next) →
      LeavesNothing world next
  stored : ∀ fileInfo ∈ world.db.fileInfo.rows, ∃ file,
    StoredIn environment (initial environment) operations fileInfo.seq file
  returned : ∀ fileInfo ∈ world.db.fileInfo.rows, ∀ file,
    StoredIn environment (initial environment) operations fileInfo.seq file →
    (perform environment world (.downloadFile fileInfo.seq none)).1 =
      .ok (.download (contentDisposition environment (environment.cleanPath file.originalFilename))
        file.bytes (.ok ()))

/-- Stored files come back unchanged after any run without I/O failures. -/
theorem run_keepsFiles (stamped : ∀ now, IsTimestamp (environment.formatTimestamp now).toList)
    (intact : ∀ operation ∈ operations, operation.faultFree = true) :
    KeepsFiles environment operations
      (run (step environment) (initial environment) operations) := by
  have start := shelved_initial environment
  constructor
  · exact (shelved_run start intact).catalogued
  · intro now file repeaterId user exception next failed
    refine leavesNothing_of_refused (fun interrupted => ?_) failed
    obtain ⟨count, message, _, _, stops, -⟩ := interrupted
    cases stops
  · intro fileInfo present
    refine exists_storedIn start intact (fun absent => ?_) present
    rw [initial_fileInfo] at absent
    cases absent
  · intro fileInfo present file storedIn
    exact (held_of_storedIn start intact storedIn).download stamped present

theorem namedBase_keepsFiles :
    KeepsFiles .dev [.connectSettingRepeater (baseConnect "app-1"), sendToBase,
        .downloadFile 1 none]
      (run (step .dev) (initial .dev) [.connectSettingRepeater (baseConnect "app-1"), sendToBase,
        .downloadFile 1 none]) :=
  run_keepsFiles (fun _ => (by decide : IsTimestamp "20240101_000000".toList)) (by decide)

end MegaVnc
