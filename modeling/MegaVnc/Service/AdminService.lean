import Mathlib.Data.List.Dedup
import MegaVnc.Repository.World

/-! # Groups, users and memberships

The services of the administration pages, the password change of a session, and
the loader that runs at every start of the application.
-/

namespace MegaVnc

open Relational Fallible

/-- What the registration of a user sends. -/
structure UserRegisterDto where
  username : Option String
  password : Option String
  passwordConfirm : Option String
deriving DecidableEq, Repr

/-- The group and the user that are selected. -/
structure AssignGroupDto where
  selectedGroupId : Option Long
  selectedUserId : Option Long
deriving DecidableEq, Repr

/-- What a change of the password sends. -/
structure ChangePasswordDto where
  password : Option String
  newPassword : Option String
  newPasswordConfirm : Option String
deriving DecidableEq, Repr

namespace AdminGroupService

/-- The groups that the administration shows. -/
def listAllGroups (db : Database) : List Group :=
  db.findAllGroupsExceptIdOne

/-- The membership of the administrator is made before the group has an id and
stored after it. -/
def register (db : Database) (groupName : Option String) : Except Exception Database := do
  let existing := db.findByGroupName groupName
  throwIf (existing.any fun group => group.id = 1)
    (.adminGroup .alreadyExistGroup "'BaseGroup'이라는 그룹명을 사용할 수 없습니다.")
  throwIf (existing ≠ none) (.adminGroup .alreadyExistGroup "")
  let found ← db.findByRole .roleAdmin
  let admin ← orElseThrow found .noSuchElementException
  let group := db.segment.nextKey
  let db ← db.saveGroup groupName
  db.saveMemberGroup admin.id group

/-- The PCs and the memberships of the group go first. -/
def deleteGroup (db : Database) (groupId : Long) : Except Exception Database := do
  let group ← orElseThrow (db.segment.findById groupId) (.adminGroup .groupNotFound "")
  throwIf (group.id = 1) (.adminGroup .cannotDeleteDefaultGroup "")
  let db := db.deleteRemotePcsWhere fun remotePc => remotePc.group = group.id
  let db := db.deleteMemberGroupsWhere fun memberGroup => memberGroup.group = group.id
  pure (db.deleteGroupRow group)

end AdminGroupService

namespace AdminUserService

/-- The users that the administration shows. -/
def listAllUsers (db : Database) : List Member :=
  db.findAllMembersExceptIdOne

/-- A new user, with a password that is confirmed and a username that nobody has. -/
def register (encode : String → String) (db : Database) (user : UserRegisterDto) :
    Except Exception Database := do
  let password ← orElseThrow user.password .nullPointerException
  throwIf (some password ≠ user.passwordConfirm) (.adminUser .passwordNotConfirmed)
  throwIf (db.findByUsername user.username ≠ none) (.adminUser .userAlreadyExist)
  db.saveMember encode user.username password .roleUser

/-- A user is deleted with the memberships; an administrator is not. -/
def deleteUser (db : Database) (memberId : Long) : Except Exception Database := do
  let member ← orElseThrow (db.member.findById memberId) (.adminUser .userNotFound)
  throwIf (member.role = .roleAdmin) (.adminUser .adminCannotDelete)
  let db := db.deleteMemberGroupsWhere fun memberGroup => memberGroup.member = member.id
  pure (db.deleteMemberRow member)

end AdminUserService

namespace AdminAssignService

/-- The user that groups are assigned to. -/
def findByUserId (db : Database) (userId : Long) : Except Exception Member :=
  orElseThrow (db.member.findById userId) (.adminAssign .userNotFound (some userId) "")

/-- The id that is compared with 1 is that of the membership. -/
def listAssignedGroups (db : Database) (userId : Long) : Except Exception (List Group) := do
  let member ← orElseThrow (db.member.findById userId)
    (.adminAssign .userNotFound (some userId) "")
  let memberGroups := db.findByMember member
  pure ((memberGroups.filter fun memberGroup => memberGroup.id ≠ 1).filterMap fun memberGroup =>
    db.segment.findById memberGroup.group)

/-- The memberships are collected in a map by the id of their group, whose value
is the group itself. Its values come in no particular order. -/
def listUnassignedGroups (db : Database) (userId : Long) : Except Exception (List Group) := do
  let member ← orElseThrow (db.member.findById userId)
    (.adminAssign .userNotFound (some userId) "")
  let memberGroups := db.findByMemberNotContaining member
  pure ((memberGroups.map MemberGroup.group).dedup.filterMap fun group =>
    db.segment.findById group)

/-- A null id is an illegal argument of `findById`. -/
def assignGroup (db : Database) (assignGroupDto : AssignGroupDto) : Except Exception Database := do
  let userId ← orElseThrow assignGroupDto.selectedUserId .illegalArgumentException
  let member ← orElseThrow (db.member.findById userId)
    (.adminAssign .userNotFound (some userId) "")
  let groupId ← orElseThrow assignGroupDto.selectedGroupId
    (.adminAssign .groupNotFound (some userId) "그룹이 선택되지 않았습니다.")
  let group ← orElseThrow (db.segment.findById groupId)
    (.adminAssign .groupNotFound (some userId) "")
  throwIf (db.findByMemberAndGroup member group.id ≠ [])
    (.adminAssign .alreadyAssignedGroup (some userId) "")
  db.saveMemberGroup member.id group.id

/-- The memberships of the user in the group are deleted; nobody leaves the base group. -/
def disassignGroup (db : Database) (memberId groupId : Long) : Except Exception Database := do
  let member ← orElseThrow (db.member.findById memberId)
    (.adminAssign .userNotFound (some memberId) "")
  let group ← orElseThrow (db.segment.findById groupId)
    (.adminAssign .groupNotFound (some memberId) "")
  throwIf (group.id = 1) (.adminAssign .cannotDeleteDefaultGroup (some memberId) "")
  pure (db.deleteMemberGroupsWhere fun memberGroup =>
    memberGroup.member = member.id ∧ memberGroup.group = group.id)

end AdminAssignService

namespace UserService

/-- There is no member with the username. -/
def usernameNotFound (username : Option String) : Exception :=
  .usernameNotFoundException ("Username '" ++ username.getD "null" ++ "' not found.")

/-- The member with the username of the principal gets the new password. -/
def changePassword (encode : String → String) (db : Database) (user : User)
    (newPassword : String) : Except Exception Database := do
  let member ← orElseThrow (db.findByUsername user.username) (usernameNotFound user.username)
  db.updateMember (member.changePassword encode newPassword)

end UserService

namespace ChangePasswordController

/-- The view shown next. The current password is checked against the copy the
session holds. -/
def processChangePassword (environment : Environment) (db : Database)
    (changePassword : ChangePasswordDto) (user : User) : Except Exception (String × Database) := do
  let password ← orElseThrow changePassword.password .illegalArgumentException
  let newPassword ← orElseThrow changePassword.newPassword .nullPointerException
  if environment.matchesPassword password user.password ∧
      some newPassword = changePassword.newPasswordConfirm then
    let db ← UserService.changePassword environment.encodePassword db user newPassword
    pure ("redirect:/login", db)
  else
    pure ("auth/change-password", db)

end ChangePasswordController

namespace MegaVncApplication

/-- The first start creates the base group, which has the id 1. -/
def loadBaseGroup (db : Database) : Except Exception Database :=
  match db.segment.findById 1 with
  | some _ => .ok db
  | none => db.saveGroup (some "BaseGroup")

/-- The first start creates the administrator. -/
def loadAdmin (encode : String → String) (db : Database) : Except Exception Database :=
  match db.findByUsername (some "admin") with
  | some _ => .ok db
  | none => db.saveMember encode (some "admin") "!mb220719" .roleAdmin

/-- The repeater maps ids below 100 elsewhere, so the base PC has 100. -/
def loadBasePc (db : Database) : Except Exception Database :=
  match db.findByRepeaterId 100 with
  | some _ => .ok db
  | none => do
      let group ← orElseThrow (db.segment.findById 1) .noSuchElementException
      db.insertRemotePc 100 "BASE" "1234" group.id

/-- Each row is loaded in its own transaction; a failure stops the start and
leaves the rows already loaded. -/
def dataLoader (encode : String → String) (db : Database) : Except Exception Unit × Database :=
  match loadBaseGroup db with
  | .error exception => (.error exception, db)
  | .ok db =>
      match loadAdmin encode db with
      | .error exception => (.error exception, db)
      | .ok db =>
          match loadBasePc db with
          | .error exception => (.error exception, db)
          | .ok db => (.ok (), db)

end MegaVncApplication

/-! ### Outcomes -/

section Outcomes

variable {db next : Database} {encode : String → String}

/-- A new group has its name as the column keeps it, and no other group has that name. -/
theorem Database.saveGroup_eq_ok {groupName : Option String}
    (saved : db.saveGroup groupName = .ok next) :
    ∃ kept, nullableVarchar groupName = some kept ∧
      (kept ≠ none → db.findByGroupName kept = none) ∧
      ∃ after : Table Group, next = { db with segment := after } ∧
        after.rows = db.segment.rows ++ [Group.createGroup kept db.segment.nextKey] ∧
        after.nextKey = db.segment.nextKey + 1 := by
  obtain ⟨after, added, rfl⟩ := Database.store_eq_ok.mp saved
  obtain ⟨new, fits, free, rows, nextKey⟩ := Table.insert_eq_some added
  obtain ⟨kept, keeps, rfl⟩ := fit_group_eq_some.mp fits
  refine ⟨kept, keeps, fun named => ?_, after, rfl, rows, nextKey⟩
  refine List.find?_eq_none.mpr fun group present same => ?_
  have sameName : group.groupName = kept := of_decide_eq_true same
  exact free group present ⟨sameName.trans_ne named, sameName⟩

/-- A new member has its username as the column keeps it, and no other member has that
name. -/
theorem Database.saveMember_eq_ok
    (fits : ∀ password, varchar (encode password) = some (encode password))
    {username : Option String} {password : String} {role : Role}
    (saved : db.saveMember encode username password role = .ok next) :
    ∃ kept, nullableVarchar username = some kept ∧
      (kept ≠ none → db.findByUsername kept = none) ∧
      ∃ after : Table Member, next = { db with member := after } ∧
        after.rows = db.member.rows ++
          [Member.createMember encode kept password role db.member.nextKey] ∧
        after.nextKey = db.member.nextKey + 1 := by
  obtain ⟨after, added, rfl⟩ := Database.store_eq_ok.mp saved
  obtain ⟨new, keeps, free, rows, nextKey⟩ := Table.insert_eq_some added
  obtain ⟨encoded, kept, passwordKept, nameKept, rfl⟩ := fit_member_eq_some.mp keeps
  obtain rfl := Option.some.inj ((fits password).symm.trans passwordKept)
  refine ⟨kept, nameKept, fun named => ?_, after, rfl, rows, nextKey⟩
  refine List.find?_eq_none.mpr fun member present same => ?_
  have sameName : member.username = kept := of_decide_eq_true same
  exact free member present ⟨sameName.trans_ne named, sameName⟩

/-- A saved membership is a new row at the end, and both of its ends are stored. -/
theorem Database.saveMemberGroup_eq_ok {member group : Long}
    (saved : db.saveMemberGroup member group = .ok next) :
    ∃ after : Table MemberGroup, next = { db with memberGroup := after } ∧
      after.rows = db.memberGroup.rows ++
        [MemberGroup.assignGroup member group db.memberGroup.nextKey] ∧
      after.nextKey = db.memberGroup.nextKey + 1 := by
  obtain ⟨after, added, rfl⟩ := Database.store_eq_ok.mp saved
  obtain ⟨new, keeps, -, rows, nextKey⟩ := Table.insert_eq_some added
  cases keeps
  exact ⟨after, rfl, rows, nextKey⟩

/-- A new group has a new name, and the administrator as its member. -/
theorem AdminGroupService.register_eq_ok {groupName : Option String}
    (registered : AdminGroupService.register db groupName = .ok next) :
    ∃ kept, nullableVarchar groupName = some kept ∧ db.findByGroupName kept = none ∧
      ∃ admin, db.findByRole .roleAdmin = .ok (some admin) ∧
      ∃ (segment : Table Group) (memberGroup : Table MemberGroup),
        next = { db with segment := segment, memberGroup := memberGroup } ∧
        segment.rows = db.segment.rows ++ [Group.createGroup kept db.segment.nextKey] ∧
        segment.nextKey = db.segment.nextKey + 1 ∧
        memberGroup.rows = db.memberGroup.rows ++
          [MemberGroup.assignGroup admin.id db.segment.nextKey db.memberGroup.nextKey] := by
  simp only [AdminGroupService.register, bind_eq_ok, orElseThrow_eq_ok,
    throwIf_eq_ok] at registered
  obtain ⟨-, -, -, new, _, found, admin, rfl, grouped, saved, assigned⟩ := registered
  obtain ⟨kept, keeps, free, segment, rfl, segmentRows, segmentKey⟩ :=
    Database.saveGroup_eq_ok saved
  obtain ⟨memberGroup, rfl, memberGroupRows, -⟩ := Database.saveMemberGroup_eq_ok assigned
  refine ⟨kept, keeps, ?_, admin, found, segment, memberGroup, rfl, segmentRows, segmentKey,
    memberGroupRows⟩
  -- A missing name is compared by the query, a name by the unique column.
  cases groupName with
  | none =>
      cases keeps
      exact of_not_not new
  | some name =>
      obtain ⟨text, -, rfl⟩ := Option.map_eq_some_iff.mp keeps
      exact free (Option.some_ne_none text)

/-- A deleted group goes with its PCs and memberships; it is not the base
group. -/
theorem AdminGroupService.deleteGroup_eq_ok {groupId : Long}
    (deleted : AdminGroupService.deleteGroup db groupId = .ok next) :
    groupId ≠ 1 ∧
      next =
        { db with
          segment := db.segment.deleteWhere fun group => group.id = groupId
          memberGroup := db.memberGroup.deleteWhere fun memberGroup => memberGroup.group = groupId
          remotePc := db.remotePc.deleteWhere fun remotePc => remotePc.group = groupId } := by
  simp only [AdminGroupService.deleteGroup, bind_eq_ok, orElseThrow_eq_ok, throwIf_eq_ok,
    pure_eq_ok] at deleted
  obtain ⟨group, found, -, other, rfl⟩ := deleted
  have named : group.id = groupId := (Table.findById_eq_some.mp found).2
  subst named
  exact ⟨other, rfl⟩

/-- A new user has a new name. -/
theorem AdminUserService.register_eq_ok
    (fits : ∀ password, varchar (encode password) = some (encode password))
    {user : UserRegisterDto} (registered : AdminUserService.register encode db user = .ok next) :
    ∃ kept, nullableVarchar user.username = some kept ∧ db.findByUsername kept = none ∧
      ∃ (password : String) (after : Table Member), next = { db with member := after } ∧
        after.rows = db.member.rows ++
          [Member.createMember encode kept password .roleUser db.member.nextKey] ∧
        after.nextKey = db.member.nextKey + 1 := by
  simp only [AdminUserService.register, bind_eq_ok, orElseThrow_eq_ok,
    throwIf_eq_ok] at registered
  obtain ⟨password, -, -, -, -, new, saved⟩ := registered
  obtain ⟨kept, keeps, free, after, rfl, rows, nextKey⟩ := Database.saveMember_eq_ok fits saved
  refine ⟨kept, keeps, ?_, password, after, rfl, rows, nextKey⟩
  cases named : user.username with
  | none =>
      rw [named] at keeps new
      cases keeps
      exact of_not_not new
  | some name =>
      rw [named] at keeps
      obtain ⟨text, -, rfl⟩ := Option.map_eq_some_iff.mp keeps
      exact free (Option.some_ne_none text)

/-- A deleted user goes with its memberships; it is not the administrator. -/
theorem AdminUserService.deleteUser_eq_ok {memberId : Long}
    (deleted : AdminUserService.deleteUser db memberId = .ok next) :
    (∃ member ∈ db.member.rows, member.id = memberId ∧ member.role ≠ .roleAdmin) ∧
      next =
        { db with
          member := db.member.deleteWhere fun member => member.id = memberId
          memberGroup := db.memberGroup.deleteWhere fun memberGroup =>
            memberGroup.member = memberId } := by
  simp only [AdminUserService.deleteUser, bind_eq_ok, orElseThrow_eq_ok, throwIf_eq_ok,
    pure_eq_ok] at deleted
  obtain ⟨member, found, -, plain, rfl⟩ := deleted
  obtain ⟨present, named⟩ := Table.findById_eq_some.mp found
  have sameId : member.id = memberId := named
  subst sameId
  exact ⟨⟨member, present, rfl, plain⟩, rfl⟩

/-- An assignment adds one membership, of a pair that had none. -/
theorem AdminAssignService.assignGroup_eq_ok {assignGroupDto : AssignGroupDto}
    (assigned : AdminAssignService.assignGroup db assignGroupDto = .ok next) :
    ∃ member ∈ db.member.rows, ∃ group ∈ db.segment.rows,
      db.findByMemberAndGroup member group.id = [] ∧
      ∃ after : Table MemberGroup, next = { db with memberGroup := after } ∧
        after.rows = db.memberGroup.rows ++
          [MemberGroup.assignGroup member.id group.id db.memberGroup.nextKey] := by
  simp only [AdminAssignService.assignGroup, bind_eq_ok, orElseThrow_eq_ok,
    throwIf_eq_ok] at assigned
  obtain ⟨userId, -, member, foundMember, groupId, -, group, foundGroup, -, new, saved⟩ := assigned
  obtain ⟨after, rfl, rows, -⟩ := Database.saveMemberGroup_eq_ok saved
  exact ⟨member, (Table.findById_eq_some.mp foundMember).1, group,
    (Table.findById_eq_some.mp foundGroup).1, of_not_not new, after, rfl, rows⟩

/-- A disassignment deletes the memberships of the pair and nothing else. -/
theorem AdminAssignService.disassignGroup_eq_ok {memberId groupId : Long}
    (disassigned : AdminAssignService.disassignGroup db memberId groupId = .ok next) :
    groupId ≠ 1 ∧
      next =
        { db with
          memberGroup := db.memberGroup.deleteWhere fun memberGroup =>
            memberGroup.member = memberId ∧ memberGroup.group = groupId } := by
  simp only [AdminAssignService.disassignGroup, bind_eq_ok, orElseThrow_eq_ok, throwIf_eq_ok,
    pure_eq_ok] at disassigned
  obtain ⟨member, foundMember, group, foundGroup, -, other, rfl⟩ := disassigned
  have memberNamed : member.id = memberId := (Table.findById_eq_some.mp foundMember).2
  have groupNamed : group.id = groupId := (Table.findById_eq_some.mp foundGroup).2
  subst memberNamed groupNamed
  exact ⟨other, rfl⟩

/-- The columns keep a stored member with a new password as it is. -/
theorem fit_changePassword (environment : Environment) {member : Member} {newPassword : String}
    (present : member ∈ db.member.rows) :
    fit (member.changePassword environment.encodePassword newPassword) =
      some (member.changePassword environment.encodePassword newPassword) := by
  obtain ⟨_, username, -, nameKept, same⟩ :=
    fit_member_eq_some.mp (db.member.rows_fit member present)
  have sameName : member.username = username := congrArg Member.username same
  exact fit_member_eq_some.mpr ⟨_, member.username, environment.encodePassword_fits newPassword,
    nameKept.trans (congrArg some sameName.symm), rfl⟩

/-- A change of password writes the password of one member, or nothing. -/
theorem ChangePasswordController.processChangePassword_eq_ok {environment : Environment}
    {changePassword : ChangePasswordDto} {user : User} {view : String}
    (changed : ChangePasswordController.processChangePassword environment db changePassword user =
      .ok (view, next)) :
    next = db ∨
      ∃ member ∈ db.member.rows, ∃ (newPassword : String) (after : Table Member),
        next = { db with member := after } ∧
        after.rows = Table.replace db.member.rows
          (member.changePassword environment.encodePassword newPassword) ∧
        after.nextKey = db.member.nextKey := by
  simp only [ChangePasswordController.processChangePassword, bind_eq_ok] at changed
  obtain ⟨password, -, newPassword, -, decided⟩ := changed
  split at decided
  · simp only [UserService.changePassword, bind_eq_ok, orElseThrow_eq_ok, pure_eq_ok,
      Prod.mk.injEq] at decided
    obtain ⟨_, ⟨member, found, written⟩, -, rfl⟩ := decided
    obtain ⟨after, updated, rfl⟩ := Database.store_eq_ok.mp written
    obtain ⟨new, keeps, rows, nextKey⟩ := Table.update_eq_some updated
    have present := List.mem_of_find?_eq_some found
    obtain rfl := Option.some.inj ((fit_changePassword environment present).symm.trans keeps)
    exact Or.inr ⟨member, present, newPassword, after, rfl, rows, nextKey⟩
  · cases pure_eq_ok.mp decided
    exact Or.inl rfl

namespace MegaVncApplication

/-- The loader finds the base group, or adds it. -/
theorem loadBaseGroup_eq_ok (loaded : loadBaseGroup db = .ok next) :
    (∃ group ∈ db.segment.rows, group.id = 1) ∧ next = db ∨
      (∀ group ∈ db.segment.rows, group.id ≠ 1) ∧
        ∃ after : Table Group, next = { db with segment := after } ∧
          after.rows = db.segment.rows ++
            [Group.createGroup (some "BaseGroup") db.segment.nextKey] := by
  unfold loadBaseGroup at loaded
  split at loaded
  · next group found =>
      cases loaded
      obtain ⟨present, named⟩ := Table.findById_eq_some.mp found
      exact Or.inl ⟨⟨group, present, named⟩, rfl⟩
  · next missing =>
      obtain ⟨_, keeps, -, after, rfl, rows, -⟩ := Database.saveGroup_eq_ok loaded
      cases (show nullableVarchar (some "BaseGroup") = some (some "BaseGroup") by decide).symm.trans
        keeps
      refine Or.inr ⟨fun group present named => ?_, after, rfl, rows⟩
      rw [Table.findById_eq_some.mpr ⟨present, named⟩] at missing
      cases missing

/-- The loader finds the administrator, or adds it. -/
theorem loadAdmin_eq_ok (fits : ∀ password, varchar (encode password) = some (encode password))
    (loaded : loadAdmin encode db = .ok next) :
    (∃ member ∈ db.member.rows, member.username = some "admin") ∧ next = db ∨
      (∀ member ∈ db.member.rows, member.username ≠ some "admin") ∧
        ∃ after : Table Member, next = { db with member := after } ∧
          after.rows = db.member.rows ++
            [Member.createMember encode (some "admin") "!mb220719" .roleAdmin
              db.member.nextKey] := by
  unfold loadAdmin at loaded
  split at loaded
  · next member found =>
      cases loaded
      have named : member.username = some "admin" := by simpa using List.find?_some found
      exact Or.inl ⟨⟨member, List.mem_of_find?_eq_some found, named⟩, rfl⟩
  · next missing =>
      obtain ⟨_, keeps, -, after, rfl, rows, -⟩ := Database.saveMember_eq_ok fits loaded
      cases (show nullableVarchar (some "admin") = some (some "admin") by decide).symm.trans keeps
      refine Or.inr ⟨fun member present named => ?_, after, rfl, rows⟩
      exact absurd named (by simpa using List.find?_eq_none.mp missing member present)

/-- The base PC is loaded in the base group when no PC has its id. -/
theorem loadBasePc_eq_ok (loaded : loadBasePc db = .ok next) :
    (∃ remotePc ∈ db.remotePc.rows, remotePc.repeaterId = 100) ∧ next = db ∨
      (∀ remotePc ∈ db.remotePc.rows, remotePc.repeaterId ≠ 100) ∧
        (∃ group ∈ db.segment.rows, group.id = 1) ∧
        ∃ after : Table RemotePc, next = { db with remotePc := after } ∧
          after.rows = db.remotePc.rows ++
            [RemotePc.createRemotePc 100 "BASE" "1234" 1 db.remotePc.nextKey] ∧
          after.nextKey = db.remotePc.nextKey + 1 := by
  unfold loadBasePc at loaded
  split at loaded
  · next remotePc found =>
      cases loaded
      exact Or.inl ⟨⟨remotePc, Database.findByRepeaterId_eq_some.mp found⟩, rfl⟩
  · next missing =>
      simp only [bind_eq_ok, orElseThrow_eq_ok] at loaded
      obtain ⟨group, found, inserted⟩ := loaded
      obtain ⟨groupIn, named⟩ := Table.findById_eq_some.mp found
      have based : group.id = 1 := named
      rw [based] at inserted
      obtain ⟨_, _, name, password, -, after, rfl, rows, nextKey⟩ :=
        Database.insertRemotePc_eq_ok inserted
      cases (show varchar "BASE" = some "BASE" by decide).symm.trans name
      cases (show varchar "1234" = some "1234" by decide).symm.trans password
      refine Or.inr ⟨fun remotePc member same => ?_, ⟨group, groupIn, based⟩, after, rfl, rows,
        nextKey⟩
      rw [Database.findByRepeaterId_eq_some.mpr ⟨member, same⟩] at missing
      cases missing

/-- A start loads the base group, then the administrator, then the base PC, as
far as it gets. -/
theorem dataLoader_stages (encode : String → String) (db : Database) :
    (dataLoader encode db).2 = db ∨
      ∃ grouped, loadBaseGroup db = .ok grouped ∧
        ((dataLoader encode db).2 = grouped ∨
          ∃ administered, loadAdmin encode grouped = .ok administered ∧
            ((dataLoader encode db).2 = administered ∨
              loadBasePc administered = .ok (dataLoader encode db).2)) := by
  unfold dataLoader
  split
  · exact Or.inl rfl
  · next grouped groupLoaded =>
      refine Or.inr ⟨grouped, groupLoaded, ?_⟩
      split
      · exact Or.inl rfl
      · next administered adminLoaded =>
          refine Or.inr ⟨administered, adminLoaded, ?_⟩
          split
          · exact Or.inl rfl
          · next baseLoaded => exact Or.inr baseLoaded

/-- What the three loads keep apart from their tables, a start keeps. -/
theorem dataLoader_keeps {Part : Type} (part : Database → Part)
    (segmentApart : ∀ db segment, part { db with segment := segment } = part db)
    (memberApart : ∀ db member, part { db with member := member } = part db)
    (remotePcApart : ∀ db remotePc, part { db with remotePc := remotePc } = part db)
    (fits : ∀ password, varchar (encode password) = some (encode password)) (db : Database) :
    part (dataLoader encode db).2 = part db := by
  rcases dataLoader_stages encode db with same | ⟨grouped, groupLoaded, later⟩
  · rw [same]
  have keptGroup : part grouped = part db := by
    rcases loadBaseGroup_eq_ok groupLoaded with ⟨-, rfl⟩ | ⟨-, after, rfl, -⟩
    · rfl
    · exact segmentApart db after
  rcases later with same | ⟨administered, adminLoaded, last⟩
  · rw [same, keptGroup]
  have keptAdmin : part administered = part db := by
    rcases loadAdmin_eq_ok fits adminLoaded with ⟨-, rfl⟩ | ⟨-, after, rfl, -⟩
    · exact keptGroup
    · exact (memberApart grouped after).trans keptGroup
  rcases last with same | baseLoaded
  · rw [same, keptAdmin]
  · rcases loadBasePc_eq_ok baseLoaded with ⟨-, same⟩ | ⟨-, -, after, same, -⟩
    · rw [same, keptAdmin]
    · rw [same]
      exact (remotePcApart administered after).trans keptAdmin

/-- The loader adds the base PC when no PC has the repeaterId 100, and changes no other. -/
theorem dataLoader_remotePc
    (fits : ∀ password, varchar (encode password) = some (encode password)) (db : Database) :
    (dataLoader encode db).2.remotePc = db.remotePc ∨
      (∀ remotePc ∈ db.remotePc.rows, remotePc.repeaterId ≠ 100) ∧
        (dataLoader encode db).2.remotePc.rows = db.remotePc.rows ++
          [RemotePc.createRemotePc 100 "BASE" "1234" 1 db.remotePc.nextKey] ∧
        (dataLoader encode db).2.remotePc.nextKey = db.remotePc.nextKey + 1 := by
  rcases dataLoader_stages encode db with same | ⟨grouped, groupLoaded, later⟩
  · exact Or.inl (congrArg Database.remotePc same)
  have keptGroup : grouped.remotePc = db.remotePc := by
    rcases loadBaseGroup_eq_ok groupLoaded with ⟨-, rfl⟩ | ⟨-, after, rfl, -⟩ <;> rfl
  rcases later with same | ⟨administered, adminLoaded, last⟩
  · exact Or.inl (by rw [same, keptGroup])
  have keptAdmin : administered.remotePc = db.remotePc := by
    rcases loadAdmin_eq_ok fits adminLoaded with ⟨-, rfl⟩ | ⟨-, after, rfl, -⟩ <;> exact keptGroup
  rcases last with same | baseLoaded
  · exact Or.inl (by rw [same, keptAdmin])
  · rw [← keptAdmin]
    rcases loadBasePc_eq_ok baseLoaded with ⟨-, same⟩ | ⟨missing, -, after, same, rows, nextKey⟩
    · exact Or.inl (congrArg Database.remotePc same)
    · rw [same]
      exact Or.inr ⟨missing, rows, nextKey⟩

/-- A start creates no group beside the base group. -/
theorem dataLoader_segment
    (fits : ∀ password, varchar (encode password) = some (encode password))
    (base : ∃ group ∈ db.segment.rows, group.id = 1) :
    (dataLoader encode db).2.segment = db.segment := by
  rcases dataLoader_stages encode db with same | ⟨grouped, groupLoaded, later⟩
  · rw [same]
  have keptGroup : grouped = db := by
    rcases loadBaseGroup_eq_ok groupLoaded with ⟨-, same⟩ | ⟨missing, -⟩
    · exact same
    · obtain ⟨group, present, named⟩ := base
      exact (missing group present named).elim
  subst keptGroup
  rcases later with same | ⟨administered, adminLoaded, last⟩
  · rw [same]
  have keptAdmin : administered.segment = grouped.segment := by
    rcases loadAdmin_eq_ok fits adminLoaded with ⟨-, rfl⟩ | ⟨-, after, rfl, -⟩ <;> rfl
  rcases last with same | baseLoaded
  · rw [same, keptAdmin]
  · rcases loadBasePc_eq_ok baseLoaded with ⟨-, same⟩ | ⟨-, -, after, same, -⟩
    · rw [same, keptAdmin]
    · rw [same]
      exact keptAdmin

/-- A later start finds everything loaded. -/
theorem dataLoader_loaded
    (fits : ∀ password, varchar (encode password) = some (encode password))
    (base : ∃ group ∈ db.segment.rows, group.id = 1)
    (admin : ∃ member ∈ db.member.rows, member.username = some "admin")
    (basePc : ∃ remotePc ∈ db.remotePc.rows, remotePc.repeaterId = 100) :
    (dataLoader encode db).2 = db := by
  rcases dataLoader_stages encode db with same | ⟨grouped, groupLoaded, later⟩
  · exact same
  rcases loadBaseGroup_eq_ok groupLoaded with ⟨-, rfl⟩ | ⟨missing, -⟩
  · rcases later with same | ⟨administered, adminLoaded, last⟩
    · exact same
    rcases loadAdmin_eq_ok fits adminLoaded with ⟨-, rfl⟩ | ⟨missing, -⟩
    · rcases last with same | baseLoaded
      · exact same
      rcases loadBasePc_eq_ok baseLoaded with ⟨-, same⟩ | ⟨missing, -⟩
      · exact same
      · obtain ⟨remotePc, present, numbered⟩ := basePc
        exact (missing remotePc present numbered).elim
    · obtain ⟨member, present, named⟩ := admin
      exact (missing member present named).elim
  · obtain ⟨group, present, named⟩ := base
    exact (missing group present named).elim

end MegaVncApplication

end Outcomes

end MegaVnc
