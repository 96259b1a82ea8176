import MegaVnc.Foundation.Mailbox
import MegaVnc.System.Frame

/-! # Who is shown an uploaded file

A file is stored under the reconnectId its PC had when it was uploaded, or under
"ADMIN_REQUEST" when it is distributed to everyone. Clients choose their
reconnectIds, and "ADMIN_REQUEST" is not refused.
-/

namespace MegaVnc

open Relational Fallible Application Transition
open Mailbox (Recipient encode filed listed delivered)
open FileService (adminRequest uploadReconnectId uniqueFileName uploadFile uploadFile_stored
  uploadFile_cases Storable findAllByReconnectId)

/-- What a page shows of a file. -/
structure Listed where
  seq : Long
  createdAt : Date
  fileName : String
  fileSize : Nat
deriving DecidableEq

/-- What a list shows of a row. -/
def FileInfo.listed (fileInfo : FileInfo) : Listed where
  seq := fileInfo.seq
  createdAt := fileInfo.createdAt
  fileName := fileInfo.fileName
  fileSize := fileInfo.fileSize

/-- Whom an upload is meant for: the client of the PC it names, or everyone when
an administrator names none. -/
def recipientOf (db : Database) (repeaterId : Option Long) (user : User) :
    Option (Recipient String) :=
  match repeaterId with
  | none => if user.isAdmin then some .everyone else none
  | some repeaterId =>
      match db.findByRepeaterId repeaterId with
      | none => none
      | some remotePc => remotePc.reconnectId.map .client

namespace Operation

/-- A call of a client, a line of the repeater, or an upload. -/
def isExchange : Operation → Bool
  | .uploadFile _ _ _ _ _ => true
  | operation => operation.isGrant

/-- The file of an accepted upload, and whom it is meant for. -/
def uploaded (environment : Environment) (world : World) :
    Operation → Option (Recipient String × Listed)
  | .uploadFile now file repeaterId user fault =>
      match (FileService.uploadFile environment world now file repeaterId user fault).1,
          recipientOf world.db repeaterId user with
      | .ok seq, some recipient => some (recipient,
          { seq := seq
            createdAt := now
            fileName := uniqueFileName environment now file
            fileSize := file.bytes.length })
      | _, _ => none
  | _ => none

/-- The upload of a file the server can store. -/
def UploadsFor (environment : Environment) (world : World) (recipient : Recipient String) :
    Operation → Prop
  | .uploadFile now file repeaterId user fault =>
      recipientOf world.db repeaterId user = some recipient ∧
        ∃ encrypted, Storable environment world now file (recipient.mark adminRequest) fault
          encrypted
  | _ => False

end Operation

/-- The files uploaded in a run. -/
def uploads (environment : Environment) : World → List Operation → List (Recipient String × Listed)
  | _, [] => []
  | world, operation :: rest =>
      (operation.uploaded environment world).toList ++
        uploads environment (step environment world operation) rest

/-- No file of a PC goes to everyone, and none that goes to everyone is meant
for the reader alone. -/
def Operation.KeepsApart (environment : Environment) (world : World) (reconnectId : String)
    (operation : Operation) : Prop :=
  ¬ operation.UploadsFor environment world (.client adminRequest) ∧
    (reconnectId = adminRequest → ¬ operation.UploadsFor environment world .everyone)

/-- The file table, as far as pages show it. -/
def World.filed (world : World) : List (String × Listed) :=
  world.db.fileInfo.rows.map fun fileInfo => (fileInfo.reconnectId, fileInfo.listed)

variable {environment : Environment} {world : World} {operation : Operation}
  {operations : List Operation} {repeaterId : Option Long} {user : User}

/-- A row gets the mark of its recipient. -/
theorem uploadReconnectId_eq_ok {db : Database} {mark : String} :
    uploadReconnectId db repeaterId user = .ok mark ↔
      ∃ recipient, recipientOf db repeaterId user = some recipient ∧
        recipient.mark adminRequest = mark := by
  cases repeaterId with
  | none =>
      by_cases admin : user.isAdmin = true
      · simp [uploadReconnectId, recipientOf, admin, Recipient.mark]
      · simp [uploadReconnectId, recipientOf, admin]
  | some repeaterId =>
      simp only [uploadReconnectId, recipientOf, bind_eq_ok, orElseThrow_eq_ok]
      cases db.findByRepeaterId repeaterId with
      | none => simp
      | some remotePc => simp [Recipient.mark]

/-! ### Only uploads change the file table -/

/-- Calls, releases and events file nothing. -/
theorem filed_step_grant (grant : operation.isGrant = true) :
    (step environment world operation).filed = world.filed := by
  have same : (step environment world operation).db.fileInfo = world.db.fileInfo := by
    apply @step_same environment world operation .fileInfo
    cases operation with
    | connectSettingRepeater remotePcDto => simp [Operation.writes]
    | disAssignRemotePc reconnectId => simp [Operation.writes]
    | processMessage now message => simp [Operation.writes]
    | _ => cases grant
  rw [World.filed, same, World.filed]

/-- An operation files what it uploads. -/
theorem filed_step (exchange : operation.isExchange = true) :
    (step environment world operation).filed =
      world.filed ++ encode adminRequest (operation.uploaded environment world).toList := by
  cases operation with
  | uploadFile now file repeaterId user fault =>
      change (uploadFile environment world now file repeaterId user fault).2.filed = _
      rcases uploadFile_cases environment world now file repeaterId user fault with
        ⟨exception, disk, refused, -⟩ | ⟨reconnectId, encrypted, addressed, storable⟩
      · rw [Operation.uploaded, refused]
        exact (List.append_nil _).symm
      · obtain ⟨recipient, meant, rfl⟩ := uploadReconnectId_eq_ok.mp addressed
        obtain ⟨after, disk, stored, rows, -⟩ := uploadFile_stored addressed storable
        rw [Operation.uploaded, stored, meant]
        change after.rows.map _ = _
        rw [rows, List.map_append]
        rfl
  | connectSettingRepeater remotePcDto =>
      exact (filed_step_grant rfl).trans (List.append_nil _).symm
  | disAssignRemotePc reconnectId => exact (filed_step_grant rfl).trans (List.append_nil _).symm
  | processMessage now message => exact (filed_step_grant rfl).trans (List.append_nil _).symm
  | _ => cases exchange

/-- A run files its uploads, in their order. -/
theorem filed_run (exchange : ∀ operation ∈ operations, operation.isExchange = true) :
    (run (step environment) world operations).filed =
      world.filed ++ encode adminRequest (uploads environment world operations) := by
  induction operations generalizing world with
  | nil => exact (List.append_nil _).symm
  | cons operation rest ih =>
      have later := @ih (step environment world operation)
        fun other member => exchange other (List.mem_cons_of_mem _ member)
      rw [run_cons, later, filed_step (exchange operation List.mem_cons_self), uploads,
        List.append_assoc]
      exact congrArg (world.filed ++ ·) (List.map_append).symm

/-! ### What a page lists -/

/-- The rows of a reconnectId are what is filed under it. -/
theorem filed_perm (world : World) (reconnectId : String) :
    ((world.db.findAllByReconnectIdOrderByCreatedAtDesc reconnectId).map FileInfo.listed).Perm
      (filed reconnectId world.filed) := by
  have sorted := List.perm_insertionSort
    (fun first second : FileInfo => second.createdAt ≤ first.createdAt)
    (world.db.fileInfo.rows.filter fun fileInfo => fileInfo.reconnectId = reconnectId)
  rw [filed, World.filed, List.filter_map, List.map_map]
  exact sorted.map FileInfo.listed

/-- A list has what is filed for everyone and what is filed for the app. -/
theorem findAllByReconnectId_perm (world : World) (reconnectId : String) :
    ((findAllByReconnectId world.db (some reconnectId)).map FileInfo.listed).Perm
      (listed adminRequest reconnectId world.filed) := by
  rw [findAllByReconnectId, List.map_append]
  exact (filed_perm world adminRequest).append (filed_perm world reconnectId)

/-- An upload for a recipient files something for it. -/
theorem uploadsFor_iff {recipient : Recipient String} :
    operation.UploadsFor environment world recipient ↔
      ∃ file, operation.uploaded environment world = some (recipient, file) := by
  cases operation with
  | uploadFile now file repeaterId user fault =>
      constructor
      · rintro ⟨meant, encrypted, storable⟩
        obtain ⟨after, disk, stored, -⟩ :=
          uploadFile_stored (uploadReconnectId_eq_ok.mpr ⟨recipient, meant, rfl⟩) storable
        rw [Operation.uploaded, stored, meant]
        exact ⟨_, rfl⟩
      · rintro ⟨listed, uploaded⟩
        rcases uploadFile_cases environment world now file repeaterId user fault with
          ⟨exception, disk, refused, -⟩ | ⟨reconnectId, encrypted, addressed, storable⟩
        · rw [Operation.uploaded, refused] at uploaded
          cases uploaded
        · obtain ⟨other, meant, rfl⟩ := uploadReconnectId_eq_ok.mp addressed
          obtain ⟨after, disk, stored, -⟩ := uploadFile_stored addressed storable
          rw [Operation.uploaded, stored, meant] at uploaded
          cases uploaded
          exact ⟨meant, encrypted, storable⟩
  | _ =>
      constructor
      · exact False.elim
      · rintro ⟨_, uploaded⟩
        cases uploaded

/-- An operation keeps the marks apart when what it files does. -/
theorem keepsApart_iff {reconnectId : String} :
    operation.KeepsApart environment world reconnectId ↔
      ∀ entry ∈ (operation.uploaded environment world).toList,
        entry.1 ≠ .client adminRequest ∧ (reconnectId = adminRequest → entry.1 ≠ .everyone) := by
  simp only [Operation.KeepsApart, uploadsFor_iff, Option.mem_toList]
  constructor
  · rintro ⟨noneMisled, noneForAll⟩ ⟨recipient, file⟩ uploaded
    exact ⟨fun misled => noneMisled ⟨file, misled ▸ uploaded⟩,
      fun own forAll => noneForAll own ⟨file, forAll ▸ uploaded⟩⟩
  · intro apart
    exact ⟨fun ⟨file, uploaded⟩ => (apart _ uploaded).1 rfl,
      fun own ⟨file, uploaded⟩ => (apart _ uploaded).2 own rfl⟩

/-- A run keeps the marks apart when all that its uploads file does. -/
theorem along_keepsApart_iff {reconnectId : String} :
    Along (step environment) (fun world operation =>
        operation.KeepsApart environment world reconnectId) world operations ↔
      ∀ entry ∈ uploads environment world operations,
        entry.1 ≠ .client adminRequest ∧ (reconnectId = adminRequest → entry.1 ≠ .everyone) := by
  induction operations generalizing world with
  | nil => simp only [along_nil, uploads, List.not_mem_nil, false_implies, implies_true]
  | cons operation rest ih =>
      rw [along_cons, keepsApart_iff, ih, uploads, List.forall_mem_append]

/-- The session of a user who is no administrator. -/
def kim : User :=
  .createUser (.createMember Environment.dev.encodePassword (some "kim") "secret" .roleUser 2)

/-- The user sends a file to the base PC. -/
def sendToBase : Operation :=
  .uploadFile 1704067260000 { originalFilename := "report.txt", bytes := [104, 105] } (some 100)
    kim none

end MegaVnc
