import MegaVnc.Repository.Database

/-! # RemotePcApiService

The operations of the application that shares a PC. A service method is one
transaction: it reads, changes entities of its persistence context, and writes
the changed ones when it commits. What it leaves to be written is separated
here from the write, since other transactions can commit in between.
-/

namespace MegaVnc

open Relational Fallible

/-- Fields absent from the request body are null. -/
structure RequestRemotePcDto where
  groupName : Option String
  pcName : Option String
  accessPassword : Option String
  reconnectId : Option String
deriving DecidableEq, Repr

/-- What a registration sends; each field may be missing. -/
structure RegisterRemotePcDto where
  accessPassword : Option String
  remotePcName : Option String
  groupName : Option String
deriving DecidableEq, Repr

/-- An entity of a persistence context: the row as loaded and its present
value. -/
structure Managed where
  loaded : RemotePc
  current : RemotePc
deriving DecidableEq, Repr

/-- The row a flush writes. -/
def Managed.dirty (entity : Managed) : Option RemotePc :=
  if entity.current = entity.loaded then none else some entity.current

/-- At the commit a changed entity is written, with all its columns. -/
def Database.flush (db : Database) (entity : Managed) : Except Exception Database :=
  match entity.dirty with
  | none => .ok db
  | some remotePc => db.updateRemotePc remotePc

/-- The registration passes the checks of a service, which takes `notSelected` for no
selection of a group. -/
structure RegisterRemotePcDto.Accepted (registerRemotePcDto : RegisterRemotePcDto)
    (notSelected : String) (db : Database) (remotePcName accessPassword : String)
    (group : Group) : Prop where
  named : registerRemotePcDto.remotePcName = some remotePcName
  name_filled : remotePcName ≠ ""
  secured : registerRemotePcDto.accessPassword = some accessPassword
  password_filled : accessPassword ≠ ""
  grouped : ∃ groupName, registerRemotePcDto.groupName = some groupName ∧
    groupName ≠ notSelected ∧ db.findByGroupName (some groupName) = some group
  free : db.existsByNameAndGroup remotePcName group = false

namespace RegisterRemotePcDto.Accepted

variable {registerRemotePcDto : RegisterRemotePcDto} {notSelected : String} {db : Database}
  {remotePcName accessPassword : String} {group : Group}

/-- The group of an accepted registration is the one it names. -/
theorem inGroup (accepted :
      registerRemotePcDto.Accepted notSelected db remotePcName accessPassword group) :
    db.findByGroupName registerRemotePcDto.groupName = some group := by
  obtain ⟨groupName, selected, -, found⟩ := accepted.grouped
  rw [selected]
  exact found

theorem group_mem (accepted :
      registerRemotePcDto.Accepted notSelected db remotePcName accessPassword group) :
    group ∈ db.segment.rows :=
  List.mem_of_find?_eq_some accepted.inGroup

/-- No PC of the group has the name as it is sent. -/
theorem unnamed (accepted :
      registerRemotePcDto.Accepted notSelected db remotePcName accessPassword group) :
    ∀ remotePc ∈ db.remotePc.rows,
      ¬ (remotePc.name = remotePcName ∧ remotePc.group = group.id) := by
  intro remotePc present taken
  have duplicate : db.existsByNameAndGroup remotePcName group = true :=
    List.any_eq_true.mpr ⟨remotePc, present, decide_eq_true taken⟩
  rw [accepted.free] at duplicate
  cases duplicate

end RegisterRemotePcDto.Accepted

namespace RemotePcApiService

/-- The reconnectId "default" leaves the entity as it is. -/
def connected (reconnectId : String) (remotePc : RemotePc) : RemotePc :=
  if reconnectId ≠ "default" then remotePc.updateReconnectId reconnectId else remotePc

/-- A call of an app for a PC, up to the commit. The first PC of the name in the group is
taken; an assigned one is given only to the reconnectId that holds it. -/
def connectTransaction (db : Database) (remotePcDto : RequestRemotePcDto) :
    Except Exception Managed := do
  let group ← orElseThrow (db.findByGroupName remotePcDto.groupName) (.api .groupNotFound "")
  let remotePcs := db.findByName remotePcDto.pcName
  throwIf (remotePcs = []) (.api .pcNotFound "")
  let response ← orElseThrow (remotePcs.find? fun remotePc => remotePc.group = group.id)
    (.api .pcNotFound "그룹을 확인해 주세요")
  throwIf (response.assignedAt ≠ none ∧ response.reconnectId = none) .nullPointerException
  throwIf (response.assignedAt ≠ none ∧ response.reconnectId ≠ remotePcDto.reconnectId)
    (.api .alreadyAssignedPc "")
  let accessPassword ← orElseThrow remotePcDto.accessPassword .nullPointerException
  throwIf (accessPassword ≠ response.accessPassword) (.api .passwordNotMatch "")
  let reconnectId ← orElseThrow remotePcDto.reconnectId .nullPointerException
  pure { loaded := response, current := connected reconnectId response }

/-- The response carries the PC's repeaterId. -/
def connectSettingRepeater (db : Database) (remotePcDto : RequestRemotePcDto) :
    Except Exception (Long × Database) := do
  let response ← connectTransaction db remotePcDto
  let db ← db.flush response
  pure (response.current.repeaterId, db)

/-- The release, up to the commit. -/
def disAssignTransaction (db : Database) (reconnectId : String) : Except Exception Managed := do
  let found ← db.findByReconnectId reconnectId
  let remotePc ← orElseThrow found (.api .cannotDisassignPc "")
  pure { loaded := remotePc, current := remotePc.disAssign }

/-- The PC that holds the reconnectId is released. -/
def disAssignRemotePcByRepeaterId (db : Database) (reconnectId : String) :
    Except Exception Database := do
  let remotePc ← disAssignTransaction db reconnectId
  db.flush remotePc

/-- Ids start from 100 and follow the highest one present. -/
def nextRepeaterId (currTop : Option RemotePc) : Long :=
  match currTop with
  | some top => top.repeaterId + 1
  | none => 100

/-- The body the two services share, with the exception each throws and the
group name each takes for no selection. -/
def registerRemotePcWith (exception : ErrorCode → String → Exception) (notSelected : String)
    (db : Database) (registerRemotePcDto : RegisterRemotePcDto) : Except Exception Database := do
  let currTop := db.findTopByOrderByRepeaterIdDesc
  let remotePcName ← orElseThrow registerRemotePcDto.remotePcName .nullPointerException
  throwIf (remotePcName = "") (exception .missingPcName "")
  let accessPassword ← orElseThrow registerRemotePcDto.accessPassword .nullPointerException
  throwIf (accessPassword = "") (exception .missingAccessPassword "")
  let groupName ← orElseThrow registerRemotePcDto.groupName .nullPointerException
  throwIf (groupName = notSelected)
    (exception .groupNotSelected "PC를 추가하려면 상단에서 그룹을 먼저 선택해주세요.")
  let group ← orElseThrow (db.findByGroupName (some groupName)) (exception .groupNotFound "")
  throwIf (db.existsByNameAndGroup remotePcName group) (exception .pcNameDuplication "")
  db.insertRemotePc (nextRepeaterId currTop) remotePcName accessPassword group.id

/-- The registration of an app. -/
def registerRemotePc (db : Database) (registerRemotePcDto : RegisterRemotePcDto) :
    Except Exception Database :=
  registerRemotePcWith .api "" db registerRemotePcDto

/-- The PC that an event is about. -/
def findRemotePcByRepeaterId (db : Database) (repeaterId : Long) : Except Exception RemotePc :=
  orElseThrow (db.findByRepeaterId repeaterId) (.api .pcNotFound "")

/-! ### Outcomes of the transactions -/

variable {db next : Database} {remotePcDto : RequestRemotePcDto} {entity : Managed}
  {reconnectId : String}

@[simp] theorem connected_id (remotePc : RemotePc) :
    (connected reconnectId remotePc).id = remotePc.id := by
  unfold connected
  split <;> rfl

@[simp] theorem connected_repeaterId (remotePc : RemotePc) :
    (connected reconnectId remotePc).repeaterId = remotePc.repeaterId := by
  unfold connected
  split <;> rfl

@[simp] theorem connected_assignedAt (remotePc : RemotePc) :
    (connected reconnectId remotePc).assignedAt = remotePc.assignedAt := by
  unfold connected
  split <;> rfl

/-- The call stores the reconnectId unless it is "default". -/
theorem connected_reconnectId (remotePc : RemotePc) :
    (connected reconnectId remotePc).reconnectId =
      if reconnectId = "default" then remotePc.reconnectId else some reconnectId := by
  unfold connected
  by_cases sentinel : reconnectId = "default"
  · simp only [sentinel, ne_eq, not_true_eq_false, ↓reduceIte]
  · simp only [sentinel, ne_eq, not_false_eq_true, ↓reduceIte, RemotePc.updateReconnectId]

/-- A call is granted a PC of the group and the name it gives, with the PC's
password, when the PC is unassigned or holds the reconnectId of the call. -/
theorem connectTransaction_eq_ok :
    connectTransaction db remotePcDto = .ok entity ↔
      ∃ group remotePc reconnectId, db.findByGroupName remotePcDto.groupName = some group ∧
        (db.findByName remotePcDto.pcName).find? (fun row => row.group = group.id) =
          some remotePc ∧
        (remotePc.assignedAt = none ∨ remotePc.reconnectId = some reconnectId) ∧
        remotePcDto.accessPassword = some remotePc.accessPassword ∧
        remotePcDto.reconnectId = some reconnectId ∧
        entity = { loaded := remotePc, current := connected reconnectId remotePc } := by
  simp only [connectTransaction, bind_eq_ok, orElseThrow_eq_ok, throwIf_eq_ok, pure_eq_ok]
  constructor
  · rintro ⟨group, inGroup, -, -, remotePc, found, -, -, -, free, password, sent, -, right,
      reconnectId, given, rfl⟩
    refine ⟨group, remotePc, reconnectId, inGroup, found, ?_, ?_, given, rfl⟩
    · by_cases unassigned : remotePc.assignedAt = none
      · exact Or.inl unassigned
      · rw [given] at free
        exact Or.inr (by_contra fun different => free ⟨unassigned, different⟩)
    · rw [sent, by_contra right]
  · rintro ⟨group, remotePc, reconnectId, inGroup, found, free, sent, given, rfl⟩
    have named : db.findByName remotePcDto.pcName ≠ [] := by
      intro missing
      rw [missing] at found
      cases found
    have known : ¬ (remotePc.assignedAt ≠ none ∧ remotePc.reconnectId = none) := by
      rintro ⟨assigned, unknown⟩
      rcases free with unassigned | holds
      · exact assigned unassigned
      · rw [unknown] at holds
        cases holds
    have granted : ¬ (remotePc.assignedAt ≠ none ∧
        remotePc.reconnectId ≠ remotePcDto.reconnectId) := by
      rintro ⟨assigned, different⟩
      rcases free with unassigned | holds
      · exact assigned unassigned
      · exact different (holds.trans given.symm)
    exact ⟨group, inGroup, (), named, remotePc, found, (), known, (), granted,
      remotePc.accessPassword, sent, (), fun wrong => wrong rfl, reconnectId, given, rfl⟩

/-- The PC a call finds is in the table, under the name the call gives. -/
theorem mem_of_find? {pcName : Option String} {group : Group} {remotePc : RemotePc}
    (found : (db.findByName pcName).find? (fun row => row.group = group.id) = some remotePc) :
    remotePc ∈ db.remotePc.rows ∧ some remotePc.name = pcName ∧ remotePc.group = group.id := by
  have named := List.mem_of_find?_eq_some found
  have inGroup := List.find?_some found
  simp only [Database.findByName, List.mem_filter, decide_eq_true_eq] at named inGroup
  exact ⟨named.1, named.2, inGroup⟩

/-- A release finds the one PC that holds the reconnectId. -/
theorem disAssignTransaction_eq_ok :
    disAssignTransaction db reconnectId = .ok entity ↔
      ∃ remotePc, db.findByReconnectId reconnectId = .ok (some remotePc) ∧
        entity = { loaded := remotePc, current := remotePc.disAssign } := by
  simp only [disAssignTransaction, bind_eq_ok, orElseThrow_eq_ok, pure_eq_ok]
  constructor
  · rintro ⟨_, found, remotePc, rfl, rfl⟩
    exact ⟨remotePc, found, rfl⟩
  · rintro ⟨remotePc, found, rfl⟩
    exact ⟨_, found, remotePc, rfl, rfl⟩

/-- What is written at the commit is the entity as it is then. -/
theorem current_of_dirty {remotePc : RemotePc} (dirty : entity.dirty = some remotePc) :
    entity.current = remotePc := by
  unfold Managed.dirty at dirty
  split at dirty
  · cases dirty
  · exact Option.some.inj dirty

/-- An entity that is not written is as it was loaded. -/
theorem current_of_clean (clean : entity.dirty = none) : entity.current = entity.loaded := by
  unfold Managed.dirty at clean
  split at clean
  · next same => exact same
  · cases clean

/-- A flush puts the entity, as the columns keep it, in the place of its row and touches
nothing else. -/
theorem flush_eq_ok (present : entity.loaded ∈ db.remotePc.rows)
    (flushed : db.flush entity = .ok next) :
    ∃ kept, fit entity.current = some kept ∧
      ∃ after : Table RemotePc, next = { db with remotePc := after } ∧
        after.rows = Table.replace db.remotePc.rows kept ∧
        after.nextKey = db.remotePc.nextKey := by
  unfold Database.flush at flushed
  split at flushed
  · next clean =>
      cases flushed
      rw [current_of_clean clean]
      exact ⟨entity.loaded, db.remotePc.rows_fit _ present, db.remotePc, rfl,
        (Table.replace_self present).symm, rfl⟩
  · next remotePc dirty =>
      rw [current_of_dirty dirty]
      exact Database.updateRemotePc_eq_ok flushed

/-- A flush of an entity that the columns keep succeeds. -/
theorem exists_flush {kept : RemotePc} (present : entity.loaded ∈ db.remotePc.rows)
    (sameId : entity.current.id = entity.loaded.id)
    (sameRepeaterId : entity.current.repeaterId = entity.loaded.repeaterId)
    (fits : fit entity.current = some kept) : ∃ next, db.flush entity = .ok next := by
  unfold Database.flush
  split
  · exact ⟨db, rfl⟩
  · next remotePc dirty =>
      rw [← current_of_dirty dirty]
      exact Database.updateRemotePc_of_mem present sameId.symm sameRepeaterId.symm fits

theorem fit_disAssign {remotePc : RemotePc} (fits : fit remotePc = some remotePc) :
    fit remotePc.disAssign = some remotePc.disAssign := by
  obtain ⟨name, accessPassword, -⟩ := fit_remotePc_eq_self.mp fits
  exact fit_remotePc_eq_self.mpr ⟨name, accessPassword, rfl⟩

/-- The columns keep a connected PC with the reconnectId as they keep it. Only a long
text is cut, so that "default" cannot come of it. -/
theorem fit_connected_eq_some {remotePc row : RemotePc} {sent : String}
    (stored : fit remotePc = some remotePc) (fits : fit (connected sent remotePc) = some row) :
    ∃ kept, varchar sent = some kept ∧ row = connected kept remotePc := by
  obtain ⟨name, accessPassword, -⟩ := fit_remotePc_eq_self.mp stored
  by_cases sentinel : sent = "default"
  · subst sentinel
    rw [connected, if_neg (not_not.mpr rfl), stored] at fits
    exact ⟨"default", by decide, (Option.some.inj fits).symm⟩
  · rw [connected, if_pos sentinel] at fits
    obtain ⟨keptName, keptPassword, keptId, nameFits, passwordFits, idFits, rfl⟩ :=
      fit_remotePc_eq_some.mp fits
    obtain rfl := Option.some.inj (name.symm.trans nameFits)
    obtain rfl := Option.some.inj (accessPassword.symm.trans passwordFits)
    obtain ⟨kept, keeps, rfl⟩ := Option.map_eq_some_iff.mp idFits
    refine ⟨kept, keeps, ?_⟩
    have other : kept ≠ "default" := by
      rintro rfl
      by_cases short : sent.length ≤ 255
      · exact sentinel (varchar_of_short keeps short).symm
      · have cut := length_varchar keeps (by omega)
        exact absurd cut (by decide)
    rw [connected, if_pos other]
    rfl

/-- An answered call has stored its reconnectId, as the column keeps it, in the PC it was
answered with. -/
theorem connectSettingRepeater_eq_ok {repeaterId : Long}
    (answered : connectSettingRepeater db remotePcDto = .ok (repeaterId, next)) :
    ∃ remotePc group reconnectId kept, ∃ after : Table RemotePc,
      db.findByGroupName remotePcDto.groupName = some group ∧
      (db.findByName remotePcDto.pcName).find? (fun row => row.group = group.id) =
        some remotePc ∧
      (remotePc.assignedAt = none ∨ remotePc.reconnectId = some reconnectId) ∧
      remotePcDto.reconnectId = some reconnectId ∧ varchar reconnectId = some kept ∧
      repeaterId = remotePc.repeaterId ∧ next = { db with remotePc := after } ∧
      after.rows = Table.replace db.remotePc.rows (connected kept remotePc) ∧
      after.nextKey = db.remotePc.nextKey := by
  simp only [connectSettingRepeater, bind_eq_ok, pure_eq_ok] at answered
  obtain ⟨entity, granted, written, flushed, same⟩ := answered
  obtain ⟨group, remotePc, reconnectId, inGroup, found, free, -, given, rfl⟩ :=
    connectTransaction_eq_ok.mp granted
  have present := (mem_of_find? found).1
  obtain ⟨row, fits, after, rfl, rows, nextKey⟩ := flush_eq_ok present flushed
  obtain ⟨kept, keeps, rfl⟩ := fit_connected_eq_some (db.remotePc.rows_fit _ present) fits
  cases same
  exact ⟨remotePc, group, reconnectId, kept, after, inGroup, found, free, given, keeps,
    connected_repeaterId remotePc, rfl, rows, nextKey⟩

/-- A registration gets as far as the insert when it passes its checks. -/
theorem registerRemotePcWith_eq_ok_iff {exception : ErrorCode → String → Exception}
    {notSelected : String} {registerRemotePcDto : RegisterRemotePcDto} :
    registerRemotePcWith exception notSelected db registerRemotePcDto = .ok next ↔
      ∃ remotePcName accessPassword group,
        registerRemotePcDto.Accepted notSelected db remotePcName accessPassword group ∧
        db.insertRemotePc (nextRepeaterId db.findTopByOrderByRepeaterIdDesc) remotePcName
          accessPassword group.id = .ok next := by
  simp only [registerRemotePcWith, bind_eq_ok, orElseThrow_eq_ok, throwIf_eq_ok]
  constructor
  · rintro ⟨remotePcName, named, -, filled, accessPassword, secured, -, guarded, groupName,
      selected, -, chosen, group, found, -, free, inserted⟩
    exact ⟨remotePcName, accessPassword, group,
      ⟨named, filled, secured, guarded, ⟨groupName, selected, chosen, found⟩,
        Bool.eq_false_iff.mpr free⟩, inserted⟩
  · rintro ⟨remotePcName, accessPassword, group, accepted, inserted⟩
    obtain ⟨groupName, selected, chosen, found⟩ := accepted.grouped
    exact ⟨remotePcName, accepted.named, (), accepted.name_filled, accessPassword,
      accepted.secured, (), accepted.password_filled, groupName, selected, (), chosen, group,
      found, (), Bool.eq_false_iff.mp accepted.free, inserted⟩

/-- The next repeaterId is above all that are stored. -/
theorem lt_nextRepeaterId {remotePc : RemotePc} (present : remotePc ∈ db.remotePc.rows) :
    remotePc.repeaterId < nextRepeaterId db.findTopByOrderByRepeaterIdDesc := by
  unfold nextRepeaterId
  split
  · next top found => exact Int.lt_add_one_of_le ((Database.findTop_eq_some found).2 _ present)
  · next missing =>
      have noRows := Database.findTop_eq_none.mp missing
      rw [noRows] at present
      cases present

end RemotePcApiService

end MegaVnc
