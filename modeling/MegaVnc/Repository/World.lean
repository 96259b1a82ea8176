import MegaVnc.Foundation.UnixPath
import MegaVnc.Repository.Database

/-! # What the application can change

Besides the database, a request can change the upload directory and push
messages to the subscribed WebSocket sessions; neither is undone when a
transaction rolls back.
-/

namespace MegaVnc

/-- A message of `sendStatusUpdate`. The registration time is formatted only
when the text is sent, and is empty for an unassigned PC. -/
structure StatusUpdate where
  pcId : Long
  status : String
  registeredAt : Option Date
deriving DecidableEq, Repr

/-- The upload directory: whether it exists, and its files by absolute path. -/
structure Disk where
  directory : Bool
  files : List (String × List UInt8)
deriving DecidableEq, Repr

namespace Disk

/-- There is no upload directory yet. -/
def empty : Disk where
  directory := false
  files := []

/-- The bytes of the file at the path. -/
def read (disk : Disk) (path : String) : Option (List UInt8) :=
  disk.files.lookup path

/-- The file at the path has these bytes, whether there was one or not. -/
def write (disk : Disk) (path : String) (bytes : List UInt8) : Disk :=
  { disk with files := (path, bytes) :: disk.files }

/-- The file at the path is gone. -/
def delete (disk : Disk) (path : String) : Disk :=
  { disk with files := disk.files.filter fun file => file.1 ≠ path }

/-- The same files with the same contents. -/
def SameFiles (first second : Disk) : Prop :=
  ∀ path, first.read path = second.read path

/-- Only the path that is written reads differently. -/
theorem read_write (disk : Disk) (path : String) (bytes : List UInt8) (other : String) :
    (disk.write path bytes).read other = if other = path then some bytes else disk.read other := by
  simp only [write, read, List.lookup_cons]
  by_cases same : other = path
  · simp only [same, beq_self_eq_true, ↓reduceIte]
  · simp only [same, beq_eq_false_iff_ne.mpr same, ↓reduceIte]

/-- Only the path that is deleted reads differently. -/
theorem read_delete (disk : Disk) (path other : String) :
    (disk.delete path).read other = if other = path then none else disk.read other := by
  unfold delete read
  induction disk.files with
  | nil => simp only [List.filter_nil, List.lookup_nil, ite_self]
  | cons file rest ih =>
      obtain ⟨name, bytes⟩ := file
      by_cases doomed : name = path
      · rw [List.filter_cons_of_neg (by simp only [doomed, ne_eq, not_true_eq_false,
          decide_false, Bool.false_eq_true, not_false_eq_true]), ih, List.lookup_cons]
        by_cases same : other = path
        · simp only [same, ↓reduceIte]
        · simp only [same, ↓reduceIte, doomed, beq_eq_false_iff_ne.mpr same]
      · rw [List.filter_cons_of_pos (by simp only [ne_eq, doomed, not_false_eq_true,
          decide_true]), List.lookup_cons, List.lookup_cons, ih]
        by_cases same : other = name
        · have different : other ≠ path := same ▸ doomed
          simp only [same, beq_self_eq_true, doomed, ↓reduceIte]
        · simp only [beq_eq_false_iff_ne.mpr same]

end Disk

/-- What the operations act on: the database, the disk, and what the browsers have been
sent. -/
structure World where
  db : Database
  disk : Disk
  broadcasts : List StatusUpdate

namespace World

/-- Before the first start. -/
def empty : World where
  db := .empty
  disk := .empty
  broadcasts := []

/-- Every open session receives the message. -/
def sendStatusUpdate (world : World) (update : StatusUpdate) : World :=
  { world with broadcasts := world.broadcasts ++ [update] }

/-- The world with another database. -/
def withDb (world : World) (db : Database) : World :=
  { world with db := db }

@[simp] theorem withDb_db (world : World) (db : Database) : (world.withDb db).db = db := rfl

@[simp] theorem sendStatusUpdate_db (world : World) (update : StatusUpdate) :
    (world.sendStatusUpdate update).db = world.db := rfl

end World

/-- The libraries and the configuration the services are given. -/
structure Environment where
  /-- `PasswordEncoder.encode` and `matches`; an encoded password has 60
  characters. -/
  encodePassword : String → String
  encodePassword_fits : ∀ password,
    varchar (encodePassword password) = some (encodePassword password)
  matchesPassword : String → String → Bool
  /-- `StringUtils.cleanPath`, `UriUtils.encode`, and AES-256 followed by
  Base64url, which fails with a message when the cipher refuses the key. Neither
  encoding shortens a name, and Base64url has no blanks. -/
  cleanPath : String → String
  uriEncode : String → String
  uriEncode_longer : ∀ name, name.length ≤ (uriEncode name).length
  encryptName : String → Except String String
  encryptName_longer : ∀ name encrypted, encryptName name = .ok encrypted →
    name.length ≤ encrypted.length ∧ ' ' ∉ encrypted.toList
  /-- A clock reading in the pattern `yyyyMMdd_HHmmss`. -/
  formatTimestamp : Date → String
  /-- `file.directory`, and the directory the application was started in. -/
  uploadDir : String
  workingDirectory : String

namespace Environment

/-- The file a path names. -/
def toAbsolutePath (environment : Environment) (path : String) : String :=
  UnixPath.resolve environment.workingDirectory path

/-- The development profile, with what its libraries yield for the password of
the first start and for uploads of `report.txt` and `notes.txt` when 2024 began;
other names are only marked and lose their blanks. -/
def dev : Environment where
  encodePassword _ := "$2a$10$abcdefghijklmnopqrstuulJRIjgJQDErEv3oUy8Oo/Qx27brYSjC"
  encodePassword_fits _ := by decide
  matchesPassword raw _ := raw = "!mb220719"
  cleanPath path := path
  uriEncode name := name
  uriEncode_longer _ := Nat.le_refl _
  encryptName name := .ok <|
    if name = "20240101_000000_report.txt" then "9LBw_vnhUWSt9uSUb2KUjKaU3V57vEIuyrnTz30VZnU="
    else if name = "20240101_000000_notes.txt" then "9LBw_vnhUWSt9uSUb2KUjNG_5Joql1hnW6NvK5rOZ4Y="
    else .ofList ('=' :: name.toList.map fun char => if char = ' ' then '+' else char)
  encryptName_longer name encrypted named := by
    cases named
    split
    · next same =>
        rw [same]
        decide
    · split
      · next same =>
          rw [same]
          decide
      · rw [String.toList_ofList, String.length_ofList, List.length_cons, List.length_map,
          String.length_toList]
        refine ⟨Nat.le_succ _, fun member => ?_⟩
        rcases List.mem_cons.mp member with marked | inside
        · exact absurd marked (by decide)
        · obtain ⟨char, -, changed⟩ := List.mem_map.mp inside
          split at changed
          · exact absurd changed (by decide)
          · next other => exact other changed
  formatTimestamp _ := "20240101_000000"
  uploadDir := "/root/uploads"
  workingDirectory := "/root"

end Environment

/-- The file a row refers to by its path. -/
def FileInfo.place (environment : Environment) (fileInfo : FileInfo) : String :=
  environment.toAbsolutePath fileInfo.filePath

end MegaVnc
