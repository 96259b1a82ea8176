import Mathlib.Data.List.Sort
import MegaVnc.Domain.Entity
import MegaVnc.Domain.Exception
import MegaVnc.Foundation.Fallible

/-! # The database and its repositories

A query method of a repository is a function of the whole database. A method
declared to return an optional throws when its query matches two rows; where
the column is unique that cannot happen and the first match is the only one.
-/

namespace MegaVnc

open Relational Fallible

/-- The tables of the schema. Access logs are only added and read in order. -/
structure Database where
  segment : Table Group
  member : Table Member
  memberGroup : Table MemberGroup
  remotePc : Table RemotePc
  fileInfo : Table FileInfo
  accessLogs : List AccessLogs

namespace Database

/-- The migrated schema without rows. -/
def empty : Database where
  segment := .empty
  member := .empty
  memberGroup := .empty
  remotePc := .empty
  fileInfo := .empty
  accessLogs := []

/-- Put the written table in its place, unless a constraint refused the row. -/
def store {Written : Type} (written : Option Written) (place : Written → Database) :
    Except Exception Database := do
  let table ← orElseThrow written .dataIntegrityViolationException
  pure (place table)

/-! ### GroupRepository -/

/-- A null name is matched by `is null`. -/
def findByGroupName (db : Database) (groupName : Option String) : Option Group :=
  db.segment.rows.find? fun group => group.groupName = groupName

/-- All groups but the base group. -/
def findAllGroupsExceptIdOne (db : Database) : List Group :=
  db.segment.rows.filter fun group => group.id ≠ 1

/-- A group is inserted if its column takes the name. -/
def saveGroup (db : Database) (groupName : Option String) : Except Exception Database :=
  store (db.segment.insert (Group.createGroup groupName) fun _ => rfl)
    fun segment => { db with segment := segment }

/-- The row of the group is deleted, whatever refers to it. -/
def deleteGroupRow (db : Database) (group : Group) : Database :=
  { db with segment := db.segment.deleteWhere fun row => row.id = group.id }

/-! ### MemberRepository -/

/-- Throws when two members have the role. -/
def findByRole (db : Database) (role : Role) : Except Exception (Option Member) :=
  match db.member.rows.filter fun member => member.role = role with
  | [] => .ok none
  | [member] => .ok (some member)
  | _ => .error .incorrectResultSizeException

/-- The member with the username, or for null one without a username. -/
def findByUsername (db : Database) (username : Option String) : Option Member :=
  db.member.rows.find? fun member => member.username = username

/-- All members but the administrator. -/
def findAllMembersExceptIdOne (db : Database) : List Member :=
  db.member.rows.filter fun member => member.id ≠ 1

/-- A member is inserted with the encoded password. -/
def saveMember (db : Database) (encode : String → String) (username : Option String)
    (password : String) (role : Role) : Except Exception Database :=
  store (db.member.insert (Member.createMember encode username password role) fun _ => rfl)
    fun member => { db with member := member }

/-- The row of the member is written over. -/
def updateMember (db : Database) (member : Member) : Except Exception Database :=
  store (db.member.update member) fun member => { db with member := member }

/-- The row of the member is deleted, whatever refers to it. -/
def deleteMemberRow (db : Database) (member : Member) : Database :=
  { db with member := db.member.deleteWhere fun row => row.id = member.id }

/-! ### Member_GroupRepository -/

/-- The memberships of the member. -/
def findByMember (db : Database) (member : Member) : List MemberGroup :=
  db.memberGroup.rows.filter fun memberGroup => memberGroup.member = member.id

/-- The memberships of the member in the group. -/
def findByMemberAndGroup (db : Database) (member : Member) (group : Long) : List MemberGroup :=
  db.memberGroup.rows.filter fun memberGroup =>
    memberGroup.member = member.id ∧ memberGroup.group = group

/-- The memberships of all members in groups the member is not in. -/
def findByMemberNotContaining (db : Database) (member : Member) : List MemberGroup :=
  let containing := (db.memberGroup.rows.filter fun memberGroup =>
    memberGroup.member = member.id).map MemberGroup.group
  db.memberGroup.rows.filter fun memberGroup => memberGroup.group ∉ containing

/-- A membership is inserted. -/
def saveMemberGroup (db : Database) (member group : Long) : Except Exception Database :=
  store (db.memberGroup.insert (MemberGroup.assignGroup member group) fun _ => rfl)
    fun memberGroup => { db with memberGroup := memberGroup }

/-- The memberships that are named are deleted. -/
def deleteMemberGroupsWhere (db : Database) (doomed : MemberGroup → Prop)
    [DecidablePred doomed] : Database :=
  { db with memberGroup := db.memberGroup.deleteWhere doomed }

/-! ### RemotePcRepository -/

/-- The PCs of the group. -/
def findByGroup (db : Database) (group : Long) : List RemotePc :=
  db.remotePc.rows.filter fun remotePc => remotePc.group = group

/-- The PC with the highest repeaterId. -/
def findTopByOrderByRepeaterIdDesc (db : Database) : Option RemotePc :=
  db.remotePc.rows.maxOn? RemotePc.repeaterId

/-- The PC with the repeaterId. -/
def findByRepeaterId (db : Database) (repeaterId : Long) : Option RemotePc :=
  db.remotePc.rows.find? fun remotePc => remotePc.repeaterId = repeaterId

/-- The column is not unique: throws when two PCs hold the reconnectId. -/
def findByReconnectId (db : Database) (reconnectId : String) :
    Except Exception (Option RemotePc) :=
  match db.remotePc.rows.filter fun remotePc => remotePc.reconnectId = some reconnectId with
  | [] => .ok none
  | [remotePc] => .ok (some remotePc)
  | _ => .error .incorrectResultSizeException

/-- The PCs of the name, in all groups. -/
def findByName (db : Database) (pcName : Option String) : List RemotePc :=
  db.remotePc.rows.filter fun remotePc => some remotePc.name = pcName

/-- Whether a PC of the group has the name, compared as it is sent. -/
def existsByNameAndGroup (db : Database) (pcName : String) (group : Group) : Bool :=
  db.remotePc.rows.any fun remotePc => remotePc.name = pcName ∧ remotePc.group = group.id

/-- A PC is inserted if its repeaterId is free and its columns take the texts. -/
def insertRemotePc (db : Database) (repeaterId : Long) (name accessPassword : String)
    (group : Long) : Except Exception Database :=
  store (db.remotePc.insert (RemotePc.createRemotePc repeaterId name accessPassword group)
    fun _ => rfl) fun remotePc => { db with remotePc := remotePc }

/-- Overwrite every column of a row. -/
def updateRemotePc (db : Database) (remotePc : RemotePc) : Except Exception Database :=
  store (db.remotePc.update remotePc) fun written => { db with remotePc := written }

/-- `save` of a copy read in an earlier transaction. When its row is gone, the
copy becomes a new row under the next generated id; the foreign key refuses it
when the group is gone too. -/
def saveRemotePc (db : Database) (remotePc : RemotePc) : Except Exception Database :=
  match db.remotePc.findById remotePc.id with
  | some _ => db.updateRemotePc remotePc
  | none => do
      throwIf (db.segment.findById remotePc.group = none) .dataIntegrityViolationException
      store (db.remotePc.insert (fun id => { remotePc with id := id }) fun _ => rfl)
        fun written => { db with remotePc := written }

/-- The PCs that are named are deleted. -/
def deleteRemotePcsWhere (db : Database) (doomed : RemotePc → Prop) [DecidablePred doomed] :
    Database :=
  { db with remotePc := db.remotePc.deleteWhere doomed }

/-! ### FileInfoRepository -/

/-- The files of an app, the newest first. -/
def findAllByReconnectIdOrderByCreatedAtDesc (db : Database) (reconnectId : String) :
    List FileInfo :=
  (db.fileInfo.rows.filter fun fileInfo => fileInfo.reconnectId = reconnectId).insertionSort
    fun first second => second.createdAt ≤ first.createdAt

/-- The files from before the date, apart from those of one owner. -/
def findAllByCreatedAtBeforeAndReconnectIdIsNot (db : Database) (date : Date)
    (reconnectId : String) : List FileInfo :=
  db.fileInfo.rows.filter fun fileInfo =>
    fileInfo.createdAt < date ∧ fileInfo.reconnectId ≠ reconnectId

/-- A file is inserted if its columns take the texts. -/
def saveFileInfo (db : Database) (createdAt : Date) (fileName filePath : String)
    (fileSize : Nat) (reconnectId : String) : Except Exception Database :=
  store (db.fileInfo.insert
    (FileInfo.createFileInfo createdAt fileName filePath fileSize reconnectId) fun _ => rfl)
    fun fileInfo => { db with fileInfo := fileInfo }

/-- The row of the file is deleted. -/
def deleteFileInfo (db : Database) (seq : Long) : Database :=
  { db with fileInfo := db.fileInfo.deleteWhere fun fileInfo => fileInfo.seq = seq }

/-! ### AccessLogsRepository -/

/-- A log row is added if its columns take the texts. -/
def saveAccessLogs (db : Database) (accessLogs : AccessLogs) : Except Exception Database := do
  let kept ← orElseThrow accessLogs.fit .dataIntegrityViolationException
  pure { db with accessLogs := db.accessLogs ++ [kept] }

/-- Log rows from before the date are deleted. -/
def deleteLogsOlderThan (db : Database) (cutoff : Date) : Database :=
  { db with accessLogs := db.accessLogs.filter fun log => ¬ log.timestamp < cutoff }

/-! ### Restart -/

/-- Values reserved in memory from the five sequences are lost. -/
def skipKeys (db : Database) (count : Nat) : Database :=
  { db with
    segment := db.segment.skipKeys count
    member := db.member.skipKeys count
    memberGroup := db.memberGroup.skipKeys count
    remotePc := db.remotePc.skipKeys count
    fileInfo := db.fileInfo.skipKeys count }

/-! ### What the queries and the writes of `remote_pc` do -/

variable {db next : Database} {remotePc other : RemotePc}

theorem store_eq_ok {Written : Type} {written : Option Written} {place : Written → Database} :
    store written place = .ok next ↔ ∃ table, written = some table ∧ place table = next := by
  simp only [store, bind_eq_ok, orElseThrow_eq_ok, pure_eq_ok]

theorem findTop_eq_none : db.findTopByOrderByRepeaterIdDesc = none ↔ db.remotePc.rows = [] := by
  have occupied := @List.isSome_maxOn?_iff _ _ _ _ RemotePc.repeaterId db.remotePc.rows
  rw [Option.isSome_iff_ne_none] at occupied
  exact not_iff_not.mp occupied

/-- The PC a registration finds has the highest id. -/
theorem findTop_eq_some (found : db.findTopByOrderByRepeaterIdDesc = some remotePc) :
    remotePc ∈ db.remotePc.rows ∧
      ∀ other ∈ db.remotePc.rows, other.repeaterId ≤ remotePc.repeaterId := by
  unfold findTopByOrderByRepeaterIdDesc at found
  refine ⟨List.maxOn?_mem found, fun other member => ?_⟩
  have highest := @List.le_apply_get_maxOn?_of_mem _ _ _ _ _ RemotePc.repeaterId _ _ member
  rwa [Option.get_of_eq_some _ found] at highest

/-- A search for a repeaterId finds exactly the PC that has it. -/
theorem findByRepeaterId_eq_some {repeaterId : Long} :
    db.findByRepeaterId repeaterId = some remotePc ↔
      remotePc ∈ db.remotePc.rows ∧ remotePc.repeaterId = repeaterId := by
  unfold findByRepeaterId
  constructor
  · intro found
    exact ⟨List.mem_of_find?_eq_some found, by simpa using List.find?_some found⟩
  · rintro ⟨member, rfl⟩
    cases found : db.remotePc.rows.find? fun row => row.repeaterId = remotePc.repeaterId with
    | none =>
        have missing := List.find?_eq_none.mp found remotePc member
        simp only [decide_true, not_true_eq_false] at missing
    | some candidate =>
        have present := List.mem_of_find?_eq_some found
        have named : candidate.repeaterId = remotePc.repeaterId := by
          simpa using List.find?_some found
        rw [Table.eq_of_clash present member (clash_remotePc.mpr named)]

/-- The column keeps the reconnectId of a stored PC as it is. -/
theorem varchar_of_holds {reconnectId : String} (present : remotePc ∈ db.remotePc.rows)
    (holds : remotePc.reconnectId = some reconnectId) :
    varchar reconnectId = some reconnectId := by
  have stored := (fit_remotePc_eq_self.mp (db.remotePc.rows_fit _ present)).2.2
  rw [holds] at stored
  obtain ⟨kept, keeps, same⟩ := Option.map_eq_some_iff.mp stored
  cases same
  exact keeps

/-- A PC is found by a reconnectId when it is the only one that holds it. -/
theorem findByReconnectId_eq_ok_some_iff {reconnectId : String} :
    db.findByReconnectId reconnectId = .ok (some remotePc) ↔
      (db.remotePc.rows.filter fun row => row.reconnectId = some reconnectId) = [remotePc] := by
  constructor
  · intro found
    unfold findByReconnectId at found
    split at found
    · cases found
    · next single =>
        cases found
        exact single
    · cases found
  · intro single
    simp only [findByReconnectId, single]

/-- The PC found by a reconnectId holds it. -/
theorem findByReconnectId_eq_ok_some {reconnectId : String}
    (found : db.findByReconnectId reconnectId = .ok (some remotePc)) :
    remotePc ∈ db.remotePc.rows ∧ remotePc.reconnectId = some reconnectId := by
  have member := findByReconnectId_eq_ok_some_iff.mp found ▸ List.mem_singleton_self remotePc
  simpa only [List.mem_filter, decide_eq_true_eq] using member

/-- A PC that holds a reconnectId alone is found by it. -/
theorem findByReconnectId_of_alone {reconnectId : String} (present : remotePc ∈ db.remotePc.rows)
    (holds : remotePc.reconnectId = some reconnectId)
    (alone : ∀ other ∈ db.remotePc.rows, other.reconnectId = some reconnectId → other = remotePc) :
    db.findByReconnectId reconnectId = .ok (some remotePc) := by
  have nodup : (db.remotePc.rows.filter fun row => row.reconnectId = some reconnectId).Nodup :=
    (db.remotePc.keys_apart.imp fun different same => different (congrArg key same)).filter _
  apply findByReconnectId_eq_ok_some_iff.mpr
  apply List.perm_singleton.mp
  refine (List.perm_ext_iff_of_nodup nodup (List.nodup_singleton _)).mpr fun other => ?_
  simp only [List.mem_filter, decide_eq_true_eq, List.mem_singleton]
  constructor
  · rintro ⟨member, held⟩
    exact alone other member held
  · rintro rfl
    exact ⟨present, holds⟩

/-- An update puts the copy as the columns keep it in the place of its row. -/
theorem updateRemotePc_eq_ok (written : db.updateRemotePc remotePc = .ok next) :
    ∃ kept, fit remotePc = some kept ∧
      ∃ after : Table RemotePc, next = { db with remotePc := after } ∧
        after.rows = Table.replace db.remotePc.rows kept ∧
        after.nextKey = db.remotePc.nextKey := by
  obtain ⟨table, updated, rfl⟩ := store_eq_ok.mp written
  obtain ⟨kept, fits, rows, nextKey⟩ := Table.update_eq_some updated
  exact ⟨kept, fits, table, rfl, rows, nextKey⟩

/-- A copy that keeps the identity of a stored row is stored in its place. -/
theorem updateRemotePc_of_mem {kept : RemotePc} (present : other ∈ db.remotePc.rows)
    (sameId : other.id = remotePc.id) (sameRepeaterId : other.repeaterId = remotePc.repeaterId)
    (fits : fit remotePc = some kept) :
    ∃ next, db.updateRemotePc remotePc = .ok next := by
  have sameUnique : unique other = unique kept :=
    congrArg some (sameRepeaterId.trans (repeaterId_fit fits).symm)
  obtain ⟨table, updated⟩ := Table.update_isSome fits present sameId sameUnique
  exact ⟨{ db with remotePc := table }, store_eq_ok.mpr ⟨table, updated, rfl⟩⟩

/-- A copy whose row is stored is written over it. -/
theorem saveRemotePc_of_mem (present : other ∈ db.remotePc.rows)
    (sameId : other.id = remotePc.id) :
    db.saveRemotePc remotePc = db.updateRemotePc remotePc := by
  have found : db.remotePc.findById remotePc.id = some other :=
    Table.findById_eq_some.mpr ⟨present, sameId⟩
  simp only [saveRemotePc, found]

/-- A saved copy that its columns keep as it is takes the place of its row, or becomes a
new row of its group. -/
theorem saveRemotePc_eq_ok (fits : fit remotePc = some remotePc)
    (saved : db.saveRemotePc remotePc = .ok next) :
    ∃ after : Table RemotePc, next = { db with remotePc := after } ∧
      ((∃ stored ∈ db.remotePc.rows, stored.id = remotePc.id) ∧
          after.rows = Table.replace db.remotePc.rows remotePc ∧
          after.nextKey = db.remotePc.nextKey ∨
        (∀ row ∈ db.remotePc.rows, row.id ≠ remotePc.id) ∧
          (∃ group ∈ db.segment.rows, group.id = remotePc.group) ∧
          after.rows = db.remotePc.rows ++ [{ remotePc with id := db.remotePc.nextKey }]) := by
  unfold saveRemotePc at saved
  split at saved
  · next stored found =>
      obtain ⟨kept, same, after, rfl, rows, nextKey⟩ := updateRemotePc_eq_ok saved
      obtain rfl := Option.some.inj (fits.symm.trans same)
      exact ⟨after, rfl, Or.inl ⟨⟨stored, Table.findById_eq_some.mp found⟩, rows, nextKey⟩⟩
  · next missing =>
      simp only [bind_eq_ok, throwIf_eq_ok] at saved
      obtain ⟨-, referred, inserted⟩ := saved
      obtain ⟨group, groupFound⟩ := Option.ne_none_iff_exists'.mp referred
      obtain ⟨after, added, rfl⟩ := store_eq_ok.mp inserted
      obtain ⟨kept, same, -, rows, -⟩ := Table.insert_eq_some added
      obtain rfl := Option.some.inj ((fit_withId fits).symm.trans same)
      refine ⟨after, rfl, Or.inr ⟨fun row present named => ?_,
        ⟨group, Table.findById_eq_some.mp groupFound⟩, rows⟩⟩
      rw [Table.findById_eq_some.mpr ⟨present, named⟩] at missing
      cases missing

/-- A new PC has its name and its password as the columns keep them. -/
theorem insertRemotePc_eq_ok {repeaterId group : Long} {name accessPassword : String}
    (inserted : db.insertRemotePc repeaterId name accessPassword group = .ok next) :
    ∃ keptName keptPassword, varchar name = some keptName ∧
      varchar accessPassword = some keptPassword ∧
      (∀ row ∈ db.remotePc.rows, row.repeaterId ≠ repeaterId) ∧
      ∃ after : Table RemotePc, next = { db with remotePc := after } ∧
        after.rows = db.remotePc.rows ++
          [RemotePc.createRemotePc repeaterId keptName keptPassword group db.remotePc.nextKey] ∧
        after.nextKey = db.remotePc.nextKey + 1 := by
  obtain ⟨table, added, rfl⟩ := store_eq_ok.mp inserted
  obtain ⟨kept, fits, free, rows, nextKey⟩ := Table.insert_eq_some added
  obtain ⟨keptName, keptPassword, reconnectId, nameFits, passwordFits, idFits, rfl⟩ :=
    fit_remotePc_eq_some.mp fits
  cases idFits
  exact ⟨keptName, keptPassword, nameFits, passwordFits,
    fun row present same => free row present (clash_remotePc.mpr same), table, rfl, rows, nextKey⟩

/-- A PC with a free repeaterId is inserted when the columns keep its name and its
password. -/
theorem exists_insertRemotePc {repeaterId group : Long} {name accessPassword keptName
    keptPassword : String} (free : ∀ row ∈ db.remotePc.rows, row.repeaterId ≠ repeaterId)
    (nameFits : varchar name = some keptName) (passwordFits : varchar accessPassword =
      some keptPassword) :
    ∃ next, db.insertRemotePc repeaterId name accessPassword group = .ok next := by
  have fits : fit (RemotePc.createRemotePc repeaterId name accessPassword group
      db.remotePc.nextKey) = some (RemotePc.createRemotePc repeaterId keptName keptPassword group
        db.remotePc.nextKey) :=
    fit_remotePc_eq_some.mpr ⟨_, _, some "", nameFits, passwordFits, rfl, rfl⟩
  have keyed (id : Long) :
      key (RemotePc.createRemotePc repeaterId name accessPassword group id) = id := rfl
  obtain ⟨after, added⟩ : ∃ after, db.remotePc.insert _ keyed = some after :=
    Table.insert_isSome fits fun row present clash => free row present (clash_remotePc.mp clash)
  exact ⟨_, store_eq_ok.mpr ⟨after, added, rfl⟩⟩

end Database

end MegaVnc
