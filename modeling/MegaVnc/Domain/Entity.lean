import MegaVnc.Foundation.Table

/-! # Entities

The rows of the six tables, with the methods the services call on them. A
reference to another entity is its foreign key. A column the services can leave
null is an `Option`.
-/

namespace MegaVnc

open Relational

/-- The `Long` of ids and repeaterIds. -/
abbrev Long := Int

/-- Milliseconds of a clock. -/
abbrev Date := Int

/-- The status of a PC, stored by its name. -/
inductive Status where
  | offline
  | standby
  | active
deriving DecidableEq, Repr

/-- The name of the status. -/
def Status.toValue : Status → String
  | .offline => "OFFLINE"
  | .standby => "STANDBY"
  | .active => "ACTIVE"

/-- The roles of members. -/
inductive Role where
  | roleAdmin
  | roleUser
deriving DecidableEq, Repr

/-- The authority that a role gives. -/
def Role.toValue : Role → String
  | .roleAdmin => "ROLE_ADMIN"
  | .roleUser => "ROLE_USER"

/-- The entity named `segment`. -/
structure Group where
  id : Long
  groupName : Option String
deriving DecidableEq, Repr

/-- A new group; the id is the next one. -/
def Group.createGroup (groupName : Option String) (id : Long) : Group where
  id := id
  groupName := groupName

/-- A member of the application; the password is the encoded one. -/
structure Member where
  id : Long
  password : String
  role : Role
  username : Option String
deriving DecidableEq, Repr

/-- `encode` is the password encoder. -/
def Member.createMember (encode : String → String) (username : Option String)
    (password : String) (role : Role) (id : Long) : Member where
  id := id
  password := encode password
  role := role
  username := username

/-- The new password is stored encoded. -/
def Member.changePassword (encode : String → String) (member : Member) (password : String) :
    Member :=
  { member with password := encode password }

/-- A membership of a member in a group, each by its id. -/
structure MemberGroup where
  id : Long
  member : Long
  group : Long
deriving DecidableEq, Repr

/-- A new membership. -/
def MemberGroup.assignGroup (member group : Long) (id : Long) : MemberGroup where
  id := id
  member := member
  group := group

/-- A PC. It is assigned as long as there is the time of its assignment, and its reconnectId
is that of the app it was granted to. -/
structure RemotePc where
  id : Long
  repeaterId : Long
  name : String
  assignedAt : Option Date
  status : Status
  accessPassword : String
  reconnectId : Option String
  group : Long
deriving DecidableEq, Repr

namespace RemotePc

/-- A new PC is offline, unassigned and granted to nobody. -/
def createRemotePc (repeaterId : Long) (name accessPassword : String) (group : Long) (id : Long) :
    RemotePc where
  id := id
  repeaterId := repeaterId
  name := name
  assignedAt := none
  status := .offline
  accessPassword := accessPassword
  reconnectId := some ""
  group := group

/-- The PC is assigned from now on. -/
def assign (now : Date) (remotePc : RemotePc) : RemotePc :=
  { remotePc with assignedAt := some now }

/-- The PC shows the status of the event. -/
def updateStatus (status : Status) (remotePc : RemotePc) : RemotePc :=
  { remotePc with status := status }

/-- The PC is granted to the app with the reconnectId. -/
def updateReconnectId (reconnectId : String) (remotePc : RemotePc) : RemotePc :=
  { remotePc with reconnectId := some reconnectId }

/-- The status is left as it is. -/
def disAssign (remotePc : RemotePc) : RemotePc :=
  { remotePc with assignedAt := none, reconnectId := some "" }

end RemotePc

/-- A file of an app, with its path on the disk. -/
structure FileInfo where
  seq : Long
  createdAt : Date
  fileName : String
  filePath : String
  fileSize : Nat
  reconnectId : String
deriving DecidableEq, Repr

/-- A new row for a file that is uploaded. -/
def FileInfo.createFileInfo (createdAt : Date) (fileName filePath : String) (fileSize : Nat)
    (reconnectId : String) (seq : Long) : FileInfo where
  seq := seq
  createdAt := createdAt
  fileName := fileName
  filePath := filePath
  fileSize := fileSize
  reconnectId := reconnectId

/-- A row of the access log; its generated id is never read. -/
structure AccessLogs where
  timestamp : Date
  groupName : Option String
  pcName : String
  division : String
  reconnectId : Option String
  ip : Option String
deriving DecidableEq, Repr

/-- The principal of a session: a copy of the member's columns made at login. -/
structure User where
  username : Option String
  password : String
  roles : List String
deriving DecidableEq, Repr

/-- The principal has copies of the columns of the member. -/
def User.createUser (member : Member) : User where
  username := member.username
  password := member.password
  roles := [member.role.toValue]

/-- The principal has the role of administrators. -/
def User.isAdmin (user : User) : Bool :=
  user.roles.contains "ROLE_ADMIN"

/-! ### Columns of text -/

/-- What a column of 255 characters keeps of a text. The null character is refused, and
so is a longer text, unless all that exceeds the width is blanks: these are cut off. -/
def varchar (text : String) : Option String :=
  if '\x00' ∈ text.toList then none
  else if text.length ≤ 255 then some text
  else if (text.toList.drop 255).all (· = ' ') then some (.ofList (text.toList.take 255))
  else none

/-- A null is kept. -/
def nullableVarchar : Option String → Option (Option String)
  | none => some none
  | some text => (varchar text).map some

/-- A text is kept as it is when it has no null character and fits the width. -/
theorem varchar_eq_self_iff {text : String} :
    varchar text = some text ↔ '\x00' ∉ text.toList ∧ text.length ≤ 255 := by
  unfold varchar
  by_cases null : '\x00' ∈ text.toList
  · simp only [null, ↓reduceIte, reduceCtorEq, not_true_eq_false, false_and]
  · by_cases short : text.length ≤ 255
    · simp only [null, short, ↓reduceIte, not_false_eq_true, and_self]
    · have longer : String.ofList (text.toList.take 255) ≠ text := by
        intro same
        have length := congrArg String.length same
        rw [String.length_ofList, List.length_take] at length
        omega
      simp only [null, short, ↓reduceIte, and_false, iff_false]
      split
      · exact fun same => longer (Option.some.inj same)
      · exact Option.some_ne_none text ∘ Eq.symm

/-- A text that is short enough is kept as it is. -/
theorem varchar_of_short {text kept : String} (stored : varchar text = some kept)
    (short : text.length ≤ 255) : kept = text := by
  unfold varchar at stored
  split at stored
  · cases stored
  · exact (Option.some.inj stored).symm

/-- A longer text is kept with the width of the column. -/
theorem length_varchar {text kept : String} (stored : varchar text = some kept)
    (long : 255 < text.length) : kept.length = 255 := by
  unfold varchar at stored
  split at stored
  · cases stored
  · rw [if_neg (Nat.not_le_of_lt long)] at stored
    split at stored
    · cases stored
      rw [String.length_ofList, List.length_take, String.length_toList]
      omega
    · cases stored

/-- A text that does not end with a blank is kept as it is, or refused. -/
theorem varchar_of_getLast {text kept : String} {last : Char} (stored : varchar text = some kept)
    (ends : text.toList.getLast? = some last) (visible : last ≠ ' ') :
    kept = text ∧ text.length ≤ 255 := by
  have short : text.length ≤ 255 := by
    by_contra long
    unfold varchar at stored
    split at stored
    · cases stored
    · split at stored
      · next blanks =>
          have rest : text.toList.drop 255 ≠ [] := by
            rw [ne_eq, List.drop_eq_nil_iff, String.length_toList]
            exact long
          have inside : last ∈ text.toList.drop 255 := by
            refine List.mem_of_getLast? ?_
            rw [List.getLast?_drop, if_neg, ends]
            rwa [String.length_toList]
          exact visible (of_decide_eq_true (List.all_eq_true.mp blanks last inside))
      · cases stored
  exact ⟨varchar_of_short stored short, short⟩

/-- What is kept once is kept as it is. -/
theorem varchar_varchar {text kept : String} (stored : varchar text = some kept) :
    varchar kept = some kept := by
  by_cases short : text.length ≤ 255
  · exact varchar_of_short stored short ▸ stored
  · unfold varchar at stored
    split at stored
    · cases stored
    · next noNull =>
        split at stored
        · cases stored
          refine varchar_eq_self_iff.mpr ⟨?_, ?_⟩
          · rw [String.toList_ofList]
            exact fun member => noNull (List.mem_of_mem_take member)
          · rw [String.length_ofList, List.length_take]
            exact Nat.min_le_left _ _
        · cases stored

/-- What a column has kept it keeps again. -/
theorem nullableVarchar_nullableVarchar {text kept : Option String}
    (stored : nullableVarchar text = some kept) : nullableVarchar kept = some kept := by
  cases text with
  | none =>
      cases stored
      rfl
  | some text =>
      obtain ⟨inner, keeps, rfl⟩ := Option.map_eq_some_iff.mp stored
      exact congrArg (Option.map some) (varchar_varchar keeps)

/-! ### Rows as the columns keep them -/

/-- The row of `segment`, whose name is unique. -/
instance : Schema Group String where
  key := Group.id
  unique := Group.groupName
  fit group := do
    let groupName ← nullableVarchar group.groupName
    some { group with groupName := groupName }
  key_fit kept := by
    obtain ⟨_, -, same⟩ := Option.bind_eq_some_iff.mp kept
    cases same
    rfl
  fit_fit kept := by
    obtain ⟨_, stored, same⟩ := Option.bind_eq_some_iff.mp kept
    cases same
    exact Option.bind_eq_some_iff.mpr ⟨_, nullableVarchar_nullableVarchar stored, rfl⟩

/-- The row of `member`, whose username is unique. -/
instance : Schema Member String where
  key := Member.id
  unique := Member.username
  fit member := do
    let password ← varchar member.password
    let username ← nullableVarchar member.username
    some { member with password := password, username := username }
  key_fit kept := by
    simp only [bind, Option.bind_eq_some_iff] at kept
    obtain ⟨_, -, _, -, same⟩ := kept
    cases same
    rfl
  fit_fit kept := by
    simp only [bind, Option.bind_eq_some_iff] at kept ⊢
    obtain ⟨_, password, _, username, same⟩ := kept
    cases same
    exact ⟨_, varchar_varchar password, _, nullableVarchar_nullableVarchar username, rfl⟩

/-- The row of `member_group`, without a text and without a unique column. -/
instance : Schema MemberGroup Empty where
  key := MemberGroup.id
  unique _ := none
  fit := some
  key_fit kept := congrArg MemberGroup.id (Option.some.inj kept).symm
  fit_fit _ := rfl

/-- The row of `remote_pc`, whose repeaterId is unique. -/
instance : Schema RemotePc Long where
  key := RemotePc.id
  unique remotePc := some remotePc.repeaterId
  fit remotePc := do
    let name ← varchar remotePc.name
    let accessPassword ← varchar remotePc.accessPassword
    let reconnectId ← nullableVarchar remotePc.reconnectId
    some { remotePc with
      name := name
      accessPassword := accessPassword
      reconnectId := reconnectId }
  key_fit kept := by
    simp only [bind, Option.bind_eq_some_iff] at kept
    obtain ⟨_, -, _, -, _, -, same⟩ := kept
    cases same
    rfl
  fit_fit kept := by
    simp only [bind, Option.bind_eq_some_iff] at kept ⊢
    obtain ⟨_, name, _, accessPassword, _, reconnectId, same⟩ := kept
    cases same
    exact ⟨_, varchar_varchar name, _, varchar_varchar accessPassword, _,
      nullableVarchar_nullableVarchar reconnectId, rfl⟩

/-- The row of `file_info`, whose file name is unique. -/
instance : Schema FileInfo String where
  key := FileInfo.seq
  unique fileInfo := some fileInfo.fileName
  fit fileInfo := do
    let fileName ← varchar fileInfo.fileName
    let filePath ← varchar fileInfo.filePath
    let reconnectId ← varchar fileInfo.reconnectId
    some { fileInfo with
      fileName := fileName
      filePath := filePath
      reconnectId := reconnectId }
  key_fit kept := by
    simp only [bind, Option.bind_eq_some_iff] at kept
    obtain ⟨_, -, _, -, _, -, same⟩ := kept
    cases same
    rfl
  fit_fit kept := by
    simp only [bind, Option.bind_eq_some_iff] at kept ⊢
    obtain ⟨_, fileName, _, filePath, _, reconnectId, same⟩ := kept
    cases same
    exact ⟨_, varchar_varchar fileName, _, varchar_varchar filePath, _,
      varchar_varchar reconnectId, rfl⟩

/-- The row of `access_logs` as its columns keep it. -/
def AccessLogs.fit (accessLogs : AccessLogs) : Option AccessLogs := do
  let groupName ← nullableVarchar accessLogs.groupName
  let pcName ← varchar accessLogs.pcName
  let division ← varchar accessLogs.division
  let reconnectId ← nullableVarchar accessLogs.reconnectId
  let ip ← nullableVarchar accessLogs.ip
  some { accessLogs with
    groupName := groupName
    pcName := pcName
    division := division
    reconnectId := reconnectId
    ip := ip }

/-- The columns keep a group when they keep its name. -/
theorem fit_group_eq_some {group kept : Group} :
    fit group = some kept ↔ ∃ groupName, nullableVarchar group.groupName = some groupName ∧
      kept = { group with groupName := groupName } := by
  simp only [fit, bind, Option.bind_eq_some_iff, Option.some.injEq]
  simp only [eq_comm]

/-- The columns keep a member when they keep the password and the username. -/
theorem fit_member_eq_some {member kept : Member} :
    fit member = some kept ↔ ∃ password username, varchar member.password = some password ∧
      nullableVarchar member.username = some username ∧
      kept = { member with password := password, username := username } := by
  simp only [fit, bind, Option.bind_eq_some_iff, Option.some.injEq, exists_and_left]
  simp only [eq_comm]

/-- The columns keep a PC when they keep its three texts. -/
theorem fit_remotePc_eq_some {remotePc kept : RemotePc} :
    fit remotePc = some kept ↔ ∃ name accessPassword reconnectId,
      varchar remotePc.name = some name ∧ varchar remotePc.accessPassword = some accessPassword ∧
      nullableVarchar remotePc.reconnectId = some reconnectId ∧
      kept = { remotePc with
        name := name
        accessPassword := accessPassword
        reconnectId := reconnectId } := by
  simp only [fit, bind, Option.bind_eq_some_iff, Option.some.injEq, exists_and_left]
  simp only [eq_comm]

/-- The columns keep a file when they keep its three texts. -/
theorem fit_fileInfo_eq_some {fileInfo kept : FileInfo} :
    fit fileInfo = some kept ↔ ∃ fileName filePath reconnectId,
      varchar fileInfo.fileName = some fileName ∧ varchar fileInfo.filePath = some filePath ∧
      varchar fileInfo.reconnectId = some reconnectId ∧
      kept = { fileInfo with
        fileName := fileName
        filePath := filePath
        reconnectId := reconnectId } := by
  simp only [fit, bind, Option.bind_eq_some_iff, Option.some.injEq, exists_and_left]
  simp only [eq_comm]

/-- A row of a PC that its columns keep as it is. -/
theorem fit_remotePc_eq_self {remotePc : RemotePc} :
    fit remotePc = some remotePc ↔ varchar remotePc.name = some remotePc.name ∧
      varchar remotePc.accessPassword = some remotePc.accessPassword ∧
      nullableVarchar remotePc.reconnectId = some remotePc.reconnectId := by
  rw [fit_remotePc_eq_some]
  constructor
  · rintro ⟨name, accessPassword, reconnectId, sameName, samePassword, sameId, kept⟩
    obtain ⟨-, -, rfl, -, -, rfl, rfl, -⟩ := RemotePc.mk.injEq .. ▸ kept
    exact ⟨sameName, samePassword, sameId⟩
  · rintro ⟨sameName, samePassword, sameId⟩
    exact ⟨_, _, _, sameName, samePassword, sameId, rfl⟩

theorem repeaterId_fit {remotePc kept : RemotePc} (fits : fit remotePc = some kept) :
    kept.repeaterId = remotePc.repeaterId := by
  obtain ⟨_, _, _, -, -, -, rfl⟩ := fit_remotePc_eq_some.mp fits
  rfl

theorem fit_withId {remotePc : RemotePc} {id : Long} (fits : fit remotePc = some remotePc) :
    fit { remotePc with id := id } = some { remotePc with id := id } := by
  obtain ⟨name, accessPassword, reconnectId⟩ := fit_remotePc_eq_self.mp fits
  exact fit_remotePc_eq_self.mpr ⟨name, accessPassword, reconnectId⟩

@[simp] theorem key_remotePc (remotePc : RemotePc) : key remotePc = remotePc.id := rfl

theorem clash_remotePc {first second : RemotePc} :
    Clash first second ↔ first.repeaterId = second.repeaterId := by
  simp only [Clash, unique, ne_eq, reduceCtorEq, not_false_eq_true, Option.some.injEq, true_and]

/-- Rows of PCs that differ at most in status, assignment and reconnectId. -/
def RemotePc.SameIdentity (first second : RemotePc) : Prop :=
  first.id = second.id ∧ first.repeaterId = second.repeaterId ∧ first.name = second.name ∧
    first.accessPassword = second.accessPassword ∧ first.group = second.group

theorem RemotePc.SameIdentity.symm {first second : RemotePc} (same : first.SameIdentity second) :
    second.SameIdentity first := by
  obtain ⟨id, repeaterId, name, accessPassword, group⟩ := same
  exact ⟨id.symm, repeaterId.symm, name.symm, accessPassword.symm, group.symm⟩

/-- The columns that identify a stored PC are kept as they are. -/
theorem RemotePc.SameIdentity.fit {stored current kept : RemotePc}
    (same : stored.SameIdentity current) (fits : fit stored = some stored)
    (keeps : Relational.fit current = some kept) : stored.SameIdentity kept := by
  obtain ⟨id, repeaterId, name, accessPassword, group⟩ := same
  obtain ⟨nameFits, passwordFits, -⟩ := fit_remotePc_eq_self.mp fits
  obtain ⟨keptName, keptPassword, _, keepsName, keepsPassword, -, rfl⟩ :=
    fit_remotePc_eq_some.mp keeps
  rw [← name, nameFits] at keepsName
  rw [← accessPassword, passwordFits] at keepsPassword
  exact ⟨id, repeaterId, Option.some.inj keepsName, Option.some.inj keepsPassword, group⟩

/-- Identity is kept from row to row. -/
theorem RemotePc.SameIdentity.trans {first second third : RemotePc}
    (before : first.SameIdentity second) (after : second.SameIdentity third) :
    first.SameIdentity third := by
  obtain ⟨id, repeaterId, name, accessPassword, group⟩ := before
  obtain ⟨id', repeaterId', name', accessPassword', group'⟩ := after
  exact ⟨id.trans id', repeaterId.trans repeaterId', name.trans name',
    accessPassword.trans accessPassword', group.trans group'⟩

end MegaVnc
