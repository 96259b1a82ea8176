import MegaVnc.Foundation.Tasks
import MegaVnc.System.AssignmentLists

/-! # Assignments at the same time

An assignment looks for a membership of the user in the group, inserts one, and
commits. Other transactions see the row after the commit, and the schema has no
unique constraint on the pair: two assignments of one user to one group can both
find none and both commit.
-/

namespace MegaVnc

open Relational Fallible Application Transition

/-- The committed state, and the user and the group of each row that is inserted
and not committed. `assigned` is a history, which no transaction reads: the memberships that
assignments have committed, in the order of the commits. -/
structure Directory where
  world : World
  inserted : List (Long × Long)
  assigned : List MemberGroup

/-- The calls that read memberships before they write them. -/
inductive MembershipRequest where
  | assignGroup (assignGroupDto : AssignGroupDto)
  | disassignGroup (memberId groupId : Long)
  | createGroup (groupName : Option String)
deriving DecidableEq

/-- A transaction between its steps. An assignment has found its user and its
group, then it has found no membership, then it has inserted one; `seen` tells how many
memberships assignments had committed when it looked. -/
inductive MembershipTask where
  | found (member : Member) (group : Group)
  | checked (member : Member) (group : Group) (seen : Nat)
  | inserted (member : Member) (group : Group) (seen : Nat)
  | selected (memberGroups : List MemberGroup)
  | named (groupName : Option String) (admin : Member)

namespace MembershipTask

/-! ### Assignment -/

/-- The member and the group the call is about, each of which must be there. -/
def findAssigned (db : Database) (assignGroupDto : AssignGroupDto) :
    Except Exception (Member × Group) := do
  let userId ← orElseThrow assignGroupDto.selectedUserId .illegalArgumentException
  let member ← orElseThrow (db.member.findById userId)
    (.adminAssign .userNotFound (some userId) "")
  let groupId ← orElseThrow assignGroupDto.selectedGroupId
    (.adminAssign .groupNotFound (some userId) "그룹이 선택되지 않았습니다.")
  let group ← orElseThrow (db.segment.findById groupId)
    (.adminAssign .groupNotFound (some userId) "")
  pure (member, group)

/-- The check for a membership that is there already. -/
def checkAssigned (db : Database) (member : Member) (group : Group) : Except Exception Unit :=
  throwIf (db.findByMemberAndGroup member group.id ≠ [])
    (.adminAssign .alreadyAssignedGroup (some member.id) "")

/-- Both foreign keys of a membership lead somewhere. -/
def Referable (db : Database) (member group : Long) : Prop :=
  db.member.findById member ≠ none ∧ db.segment.findById group ≠ none

instance (db : Database) (member group : Long) : Decidable (Referable db member group) :=
  inferInstanceAs (Decidable (_ ∧ _))

/-- The foreign keys, which the database checks at the insert. -/
def insertAssigned (db : Database) (member : Member) (group : Group) : Except Exception Unit :=
  throwIf (¬ Referable db member.id group.id) .dataIntegrityViolationException

/-! ### Disassignment -/

/-- The rows a disassignment is going to delete. -/
def selectDisassigned (db : Database) (memberId groupId : Long) :
    Except Exception (List MemberGroup) := do
  let member ← orElseThrow (db.member.findById memberId)
    (.adminAssign .userNotFound (some memberId) "")
  let group ← orElseThrow (db.segment.findById groupId)
    (.adminAssign .groupNotFound (some memberId) "")
  throwIf (group.id = 1) (.adminAssign .cannotDeleteDefaultGroup (some memberId) "")
  pure (db.findByMemberAndGroup member group.id)

/-- The rows are deleted by their ids, and one that is gone by then is an error. -/
def deleteSelected (db : Database) (memberGroups : List MemberGroup) : Option Database :=
  if ∀ memberGroup ∈ memberGroups, db.memberGroup.findById memberGroup.id ≠ none then
    some (db.deleteMemberGroupsWhere fun row => row.id ∈ memberGroups.map MemberGroup.id)
  else none

/-! ### Creation of a group -/

/-- The checks of a new group's name, and the administrator who joins it. -/
def checkNamed (db : Database) (groupName : Option String) : Except Exception Member := do
  let existing := db.findByGroupName groupName
  throwIf (existing.any fun group => group.id = 1)
    (.adminGroup .alreadyExistGroup "'BaseGroup'이라는 그룹명을 사용할 수 없습니다.")
  throwIf (existing ≠ none) (.adminGroup .alreadyExistGroup "")
  let found ← db.findByRole .roleAdmin
  orElseThrow found .noSuchElementException

/-- The new group and the administrator's membership are inserted together. -/
def saveNamed (db : Database) (groupName : Option String) (admin : Member) :
    Except Exception Database := do
  let group := db.segment.nextKey
  let db ← db.saveGroup groupName
  throwIf (db.member.findById admin.id = none) .dataIntegrityViolationException
  db.saveMemberGroup admin.id group

/-! ### Steps -/

/-- A call starts with its reads, unless they make it fail. -/
def launch (db : Database) : MembershipRequest → Option MembershipTask
  | .assignGroup assignGroupDto =>
      (findAssigned db assignGroupDto).toOption.map fun assigned => .found assigned.1 assigned.2
  | .disassignGroup memberId groupId =>
      (selectDisassigned db memberId groupId).toOption.map .selected
  | .createGroup groupName => (checkNamed db groupName).toOption.map (.named groupName)

end MembershipTask

/-- Commit what a transaction has written, or roll it back. -/
def Directory.finish (directory : Directory) (written : Option Database) : Directory :=
  match written with
  | some db => { directory with world := directory.world.withDb db }
  | none => directory

/-- One step of a transaction. The id of a membership is drawn at its commit;
the transactions do not depend on the ids of rows they cannot see. -/
def MembershipTask.advance (directory : Directory) :
    MembershipTask → Directory × Option MembershipTask
  | .found member group =>
      (directory, (checkAssigned directory.world.db member group).toOption.map fun _ =>
        .checked member group directory.assigned.length)
  | .checked member group seen =>
      match insertAssigned directory.world.db member group with
      | .ok _ =>
          ({ directory with inserted := (member.id, group.id) :: directory.inserted },
            some (.inserted member group seen))
      | .error _ => (directory, none)
  | .inserted member group _ =>
      let row := MemberGroup.assignGroup member.id group.id directory.world.db.memberGroup.nextKey
      let committed :=
        { directory with
          inserted := directory.inserted.erase (member.id, group.id)
          assigned := directory.assigned ++ [row] }
      (committed.finish (directory.world.db.saveMemberGroup member.id group.id).toOption, none)
  | .selected memberGroups =>
      (directory.finish (deleteSelected directory.world.db memberGroups), none)
  | .named groupName admin =>
      (directory.finish (saveNamed directory.world.db groupName admin).toOption, none)

/-- The transactions that are taken apart. -/
def Operation.Joins : Operation → Prop
  | .assignGroup _ | .disassignGroup _ _ | .createGroup _ => True
  | _ => False

/-- An operation that removes a user or a group waits for the inserted rows that
refer to it. -/
def Directory.operate (environment : Environment) (directory : Directory)
    (operation : Operation) : Directory :=
  let next := step environment directory.world operation
  if ∀ reference ∈ directory.inserted,
      MembershipTask.Referable next.db reference.1 reference.2 then
    { directory with world := next }
  else directory

/-- The calls proceed by turns; every other operation runs as a whole. -/
abbrev MembershipAction :=
  Tasks.Action MembershipRequest {operation : Operation // ¬ operation.Joins}

/-- The transactions in steps, among operations of any other kind. -/
def enrolment (environment : Environment) :
    Tasks.System Directory MembershipTask MembershipRequest
      {operation : Operation // ¬ operation.Joins} where
  launch directory := MembershipTask.launch directory.world.db
  advance := MembershipTask.advance
  operate directory operation := directory.operate environment operation.1

variable {environment : Environment} {world : World} {db next : Database}
  {directory : Directory} {member : Member} {group : Group} {groupName : Option String}

/-! ### The steps without a pause -/

namespace MembershipTask

/-- What was found is the selected member and a stored group. -/
theorem findAssigned_eq_ok {assignGroupDto : AssignGroupDto}
    (found : findAssigned db assignGroupDto = .ok (member, group)) :
    assignGroupDto.selectedUserId = some member.id ∧ member ∈ db.member.rows ∧
      group ∈ db.segment.rows := by
  simp only [findAssigned, bind_eq_ok, orElseThrow_eq_ok, pure_eq_ok, Table.findById_eq_some,
    Prod.mk.injEq] at found
  obtain ⟨userId, selected, member, ⟨memberIn, sameUser⟩, groupId, -, group, ⟨groupIn, -⟩, rfl,
    rfl⟩ := found
  exact ⟨selected.trans (congrArg some sameUser.symm), memberIn, groupIn⟩

/-- A stored member and a stored group may be referred to. -/
theorem referable_of_mem (memberIn : member ∈ db.member.rows) (groupIn : group ∈ db.segment.rows) :
    Referable db member.id group.id := by
  have memberFound : db.member.findById member.id = some member :=
    Table.findById_eq_some.mpr ⟨memberIn, rfl⟩
  have groupFound : db.segment.findById group.id = some group :=
    Table.findById_eq_some.mpr ⟨groupIn, rfl⟩
  rw [Referable, memberFound, groupFound]
  exact ⟨Option.some_ne_none member, Option.some_ne_none group⟩

/-- The service's call is its four parts in a row. -/
theorem assignGroup_eq (db : Database) (assignGroupDto : AssignGroupDto) :
    AdminAssignService.assignGroup db assignGroupDto =
      (findAssigned db assignGroupDto >>= fun assigned =>
        checkAssigned db assigned.1 assigned.2 >>= fun _ =>
          insertAssigned db assigned.1 assigned.2 >>= fun _ =>
            db.saveMemberGroup assigned.1.id assigned.2.id) := by
  simp only [AdminAssignService.assignGroup, findAssigned, bind_assoc, pure_bind]
  refine bind_congr fun userId => ?_
  cases foundMember : db.member.findById userId with
  | none => rfl
  | some member =>
      obtain ⟨memberIn, sameUser⟩ := Table.findById_eq_some.mp foundMember
      have named : member.id = userId := sameUser
      simp only [orElseThrow, ok_bind]
      refine bind_congr fun groupId => ?_
      cases foundGroup : db.segment.findById groupId with
      | none => rfl
      | some group =>
          have referable := referable_of_mem memberIn (Table.findById_eq_some.mp foundGroup).1
          simp only [ok_bind, checkAssigned, insertAssigned, named, throwIf]
          rw [named] at referable
          simp only [referable, not_true_eq_false, ↓reduceIte, ok_bind]

/-- The disassignment is its two parts in a row. -/
theorem disassignGroup_eq (db : Database) (memberId groupId : Long) :
    AdminAssignService.disassignGroup db memberId groupId =
      (selectDisassigned db memberId groupId >>= fun memberGroups =>
        orElseThrow (deleteSelected db memberGroups) .dataIntegrityViolationException) := by
  simp only [AdminAssignService.disassignGroup, selectDisassigned, bind_assoc, pure_bind]
  refine bind_congr fun member => bind_congr fun group => bind_congr fun _ => ?_
  have stored : ∀ memberGroup ∈ db.findByMemberAndGroup member group.id,
      db.memberGroup.findById memberGroup.id ≠ none := by
    intro memberGroup selected
    have found : db.memberGroup.findById memberGroup.id = some memberGroup :=
      Table.findById_eq_some.mpr ⟨(List.mem_filter.mp selected).1, rfl⟩
    rw [found]
    exact Option.some_ne_none memberGroup
  have same : ∀ row ∈ db.memberGroup.rows,
      (row.member = member.id ∧ row.group = group.id) ↔
        row.id ∈ (db.findByMemberAndGroup member group.id).map MemberGroup.id := by
    intro row rowIn
    simp only [List.mem_map, Database.findByMemberAndGroup, List.mem_filter, decide_eq_true_eq]
    constructor
    · intro joined
      exact ⟨row, ⟨rowIn, joined⟩, rfl⟩
    · rintro ⟨other, ⟨otherIn, joined⟩, sameId⟩
      have equal : other = row := Table.eq_of_key_eq otherIn rowIn sameId
      exact equal ▸ joined
  rw [deleteSelected, if_pos stored]
  simp only [orElseThrow, Database.deleteMemberGroupsWhere, Table.deleteWhere_congr same]
  rfl

/-- The creation of a group is its two parts in a row. -/
theorem register_eq (db : Database) (groupName : Option String) :
    AdminGroupService.register db groupName =
      (checkNamed db groupName >>= fun admin => saveNamed db groupName admin) := by
  simp only [AdminGroupService.register, checkNamed, bind_assoc]
  refine bind_congr fun _ => bind_congr fun _ => ?_
  cases found : db.findByRole .roleAdmin with
  | error exception => rfl
  | ok admin =>
      cases admin with
      | none => rfl
      | some admin =>
          have stored : db.member.findById admin.id = some admin :=
            Table.findById_eq_some.mpr ⟨(findByRole_eq_ok_some found).1, rfl⟩
          simp only [ok_bind, orElseThrow, saveNamed]
          cases saved : db.saveGroup groupName with
          | error exception => rfl
          | ok grouped =>
              obtain ⟨kept, -, -, segment, rfl, -⟩ := Database.saveGroup_eq_ok saved
              simp only [ok_bind, stored, throwIf, reduceCtorEq, ↓reduceIte]

end MembershipTask

/-! ### What the steps do to memberships -/

/-- There is a membership of the user in the group. -/
def HasMembership (db : Database) (pair : Long × Long) : Prop :=
  ∃ memberGroup ∈ db.memberGroup.rows, (memberGroup.member, memberGroup.group) = pair

instance (db : Database) (pair : Long × Long) : Decidable (HasMembership db pair) :=
  inferInstanceAs (Decidable (∃ memberGroup ∈ db.memberGroup.rows,
    (memberGroup.member, memberGroup.group) = pair))

theorem hasMembership_iff {groupId : Long} :
    HasMembership db (member.id, groupId) ↔ member.In db groupId := by
  simp only [HasMembership, Member.In, Prod.mk.injEq]

/-- The base group is there, and memberships refer to ids that have been given
out. -/
structure GroupsGiven (db : Database) : Prop where
  base : ∃ group ∈ db.segment.rows, group.id = 1
  below : ∀ memberGroup ∈ db.memberGroup.rows, memberGroup.group < db.segment.nextKey

/-- No membership is new, and no id of a group is given back. -/
structure Shrinks (db next : Database) : Prop where
  base : (∃ group ∈ db.segment.rows, group.id = 1) → ∃ group ∈ next.segment.rows, group.id = 1
  nextKey : db.segment.nextKey ≤ next.segment.nextKey
  sublist : next.memberGroup.rows.Sublist db.memberGroup.rows

theorem Shrinks.refl (db : Database) : Shrinks db db :=
  ⟨id, Int.le_refl _, List.Sublist.refl _⟩

/-- Keys stay given while the tables shrink. -/
theorem Shrinks.groupsGiven (shrinks : Shrinks db next) (given : GroupsGiven db) :
    GroupsGiven next where
  base := shrinks.base given.base
  below memberGroup member :=
    Int.lt_of_lt_of_le (given.below memberGroup (shrinks.sublist.subset member)) shrinks.nextKey

theorem Shrinks.apart (shrinks : Shrinks db next) (apart : MembershipsApart db) :
    MembershipsApart next :=
  (shrinks.sublist.map _).nodup apart

/-- An operation that joins nobody to a group adds no membership and no group. -/
theorem step_shrinks (base : ∃ group ∈ world.db.segment.rows, group.id = 1)
    {operation : Operation} (other : ¬ operation.Joins) :
    Shrinks world.db (step environment world operation).db where
  base := (step_directoryEffect environment world operation).baseGroup
  nextKey := segment_nextKey_le_step base
  sublist := by
    have effect := step_directoryEffect environment world operation
    generalize (step environment world operation).db = next at effect
    cases effect with
    | groupCreated | assigned | disassigned => exact (other trivial).elim
    | groupDeleted _ _ _ memberGroup => exact memberGroup ▸ List.filter_sublist
    | userDeleted _ _ _ _ _ memberGroup => exact memberGroup ▸ List.filter_sublist
    | kept _ _ memberGroup => exact memberGroup ▸ List.Sublist.refl _
    | userRegistered _ _ _ _ memberGroup => exact memberGroup ▸ List.Sublist.refl _
    | passwordChanged _ _ _ memberGroup => exact memberGroup ▸ List.Sublist.refl _
    | started _ _ memberGroup => exact memberGroup ▸ List.Sublist.refl _

/-- An operation that joins nobody to a group also leaves the history of assignments alone. -/
theorem Directory.operate_shrinks
    (base : ∃ group ∈ directory.world.db.segment.rows, group.id = 1) {operation : Operation}
    (other : ¬ operation.Joins) :
    Shrinks directory.world.db (directory.operate environment operation).world.db := by
  unfold Directory.operate
  dsimp only
  split
  · exact step_shrinks base other
  · exact .refl _

/-- A group that was saved is one new row, with one membership of the administrator. -/
theorem MembershipTask.saveNamed_eq_ok {admin : Member}
    (saved : saveNamed db groupName admin = .ok next) :
    (∃ kept, next.segment.rows =
        db.segment.rows ++ [Group.createGroup kept db.segment.nextKey]) ∧
      next.segment.nextKey = db.segment.nextKey + 1 ∧
      next.memberGroup.rows = db.memberGroup.rows ++
        [MemberGroup.assignGroup admin.id db.segment.nextKey db.memberGroup.nextKey] := by
  simp only [saveNamed, bind_eq_ok] at saved
  obtain ⟨grouped, groupSaved, -, -, joined⟩ := saved
  obtain ⟨kept, -, -, segment, rfl, segmentRows, segmentKey⟩ :=
    Database.saveGroup_eq_ok groupSaved
  obtain ⟨memberGroup, rfl, memberGroupRows, -⟩ := Database.saveMemberGroup_eq_ok joined
  exact ⟨⟨kept, segmentRows⟩, segmentKey, memberGroupRows⟩

/-- No constraint refuses a membership. -/
theorem exists_saveMemberGroup (db : Database) (member group : Long) :
    ∃ next, db.saveMemberGroup member group = .ok next := by
  obtain ⟨after, added⟩ : ∃ after,
      db.memberGroup.insert (MemberGroup.assignGroup member group) (fun _ => rfl) = some after :=
    Table.insert_isSome rfl fun row _ clash => clash.1 rfl
  exact ⟨_, Database.store_eq_ok.mpr ⟨after, added, rfl⟩⟩

/-- An assignment that commits appends its membership. -/
theorem MembershipTask.advance_inserted (directory : Directory) (member : Member) (group : Group)
    (seen : Nat) :
    ∃ after : Table MemberGroup,
      (MembershipTask.advance directory (.inserted member group seen)).1.world.db =
        { directory.world.db with memberGroup := after } ∧
      after.rows = directory.world.db.memberGroup.rows ++ [MemberGroup.assignGroup member.id
        group.id directory.world.db.memberGroup.nextKey] ∧
      (MembershipTask.advance directory (.inserted member group seen)).1.assigned =
        directory.assigned ++ [MemberGroup.assignGroup member.id group.id
          directory.world.db.memberGroup.nextKey] := by
  obtain ⟨next, saved⟩ := exists_saveMemberGroup directory.world.db member.id group.id
  obtain ⟨after, rfl, rows, -⟩ := Database.saveMemberGroup_eq_ok saved
  refine ⟨after, ?_, rows, ?_⟩
  · simp only [MembershipTask.advance, saved]
    rfl
  · simp only [MembershipTask.advance, saved]
    rfl

/-- A commit that is not an insert leaves the history of assignments alone. -/
theorem Directory.finish_assigned (directory : Directory) (written : Option Database) :
    (directory.finish written).assigned = directory.assigned := by
  cases written with
  | none => rfl
  | some db => rfl

/-- A commit leaves what it wrote, or the database as it was. -/
theorem Directory.finish_db (directory : Directory) (written : Option Database) :
    (directory.finish written).world.db = written.getD directory.world.db := by
  cases written with
  | none => rfl
  | some db => rfl

/-- Deleting the selected rows only removes memberships. -/
theorem MembershipTask.deleteSelected_shrinks (db : Database) (memberGroups : List MemberGroup) :
    Shrinks db ((deleteSelected db memberGroups).getD db) := by
  unfold deleteSelected
  split
  · exact ⟨id, Int.le_refl _, List.filter_sublist⟩
  · exact .refl db

/-- A new group comes with the membership of the administrator, or nothing
changes. -/
theorem MembershipTask.saveNamed_cases (db : Database) (groupName : Option String)
    (admin : Member) :
    (saveNamed db groupName admin).toOption.getD db = db ∨
      ∃ next, saveNamed db groupName admin = .ok next ∧
        (saveNamed db groupName admin).toOption.getD db = next := by
  cases saved : saveNamed db groupName admin with
  | error exception => exact Or.inl rfl
  | ok next => exact Or.inr ⟨next, rfl, rfl⟩

/-- A new row keeps memberships apart exactly when its pair was not there. -/
theorem membershipsApart_append {memberGroup : MemberGroup}
    (rows : next.memberGroup.rows = db.memberGroup.rows ++ [memberGroup]) :
    MembershipsApart next ↔
      MembershipsApart db ∧ ¬ HasMembership db (memberGroup.member, memberGroup.group) := by
  unfold MembershipsApart HasMembership
  rw [rows, Table.nodup_append_row]
  simp only [not_exists, not_and, ne_eq]

/-! ### Commits of what is new -/

/-- The user and the group of an assignment. -/
def MembershipTask.pair : MembershipTask → Option (Long × Long)
  | .found member group | .checked member group _ | .inserted member group _ =>
      some (member.id, group.id)
  | .selected _ | .named _ _ => none

/-- The assignment commits next, and since its check another one of the same user and
group has committed a membership that is still there. -/
def MembershipTask.Overtaken (directory : Directory) : MembershipTask → Prop
  | .inserted member group seen => ∃ row ∈ directory.assigned.drop seen,
      (row.member, row.group) = (member.id, group.id) ∧ row ∈ directory.world.db.memberGroup.rows
  | _ => False

instance (directory : Directory) : DecidablePred (MembershipTask.Overtaken directory)
  | .inserted member group seen => inferInstanceAs (Decidable (∃ row ∈ directory.assigned.drop seen,
      (row.member, row.group) = (member.id, group.id) ∧ row ∈ directory.world.db.memberGroup.rows))
  | .found _ _ | .checked _ _ _ | .selected _ | .named _ _ => .isFalse id

/-- No assignment commits that has been overtaken. -/
def CommitsFirst (state : Tasks.State Directory MembershipTask) :
    MembershipAction → Prop
  | .advance position => ∀ task ∈ state.tasks[position]?, ¬ task.Overtaken state.shared
  | .launch _ | .operate _ => True

instance decidableCommitsFirst (state : Tasks.State Directory MembershipTask) :
    ∀ action, Decidable (CommitsFirst state action)
  | .advance position => inferInstanceAs (Decidable (∀ task ∈ state.tasks[position]?,
      ¬ task.Overtaken state.shared))
  | .launch _ | .operate _ => .isTrue trivial

/-- No PC is listed twice to a user. -/
def ListsOnce (db : Database) : Prop :=
  ∀ member, ((pcsOfMember db member).map ResponseRemotePcDto.id).Nodup

/-- How many memberships assignments had committed when this one made its check. -/
def MembershipTask.since : MembershipTask → Option Nat
  | .checked _ _ seen | .inserted _ _ seen => some seen
  | .found _ _ | .selected _ | .named _ _ => none

/-- An assignment is to a group whose id has been given out. Of its user and group there are
no memberships but those committed by assignments since its check. -/
structure MembershipTask.Tracked (directory : Directory) (task : MembershipTask) : Prop where
  below : ∀ pair ∈ task.pair, pair.2 < directory.world.db.segment.nextKey
  seen : ∀ seen ∈ task.since, seen ≤ directory.assigned.length
  overtaking : ∀ pair ∈ task.pair, ∀ seen ∈ task.since, ∀ row ∈ directory.world.db.memberGroup.rows,
    (row.member, row.group) = pair → row ∈ directory.assigned.drop seen

/-- A membership that is new was committed by an assignment, or is to a new group. -/
structure Directory.Follows (directory next : Directory) : Prop where
  nextKey : directory.world.db.segment.nextKey ≤ next.world.db.segment.nextKey
  assigned : directory.assigned <+: next.assigned
  rows : ∀ row ∈ next.world.db.memberGroup.rows, row ∈ directory.world.db.memberGroup.rows ∨
    row ∈ next.assigned.drop directory.assigned.length ∨
    directory.world.db.segment.nextKey ≤ row.group

variable {task : MembershipTask} {state : Tasks.State Directory MembershipTask}
  {action : MembershipAction}
  {actions : List MembershipAction}

/-- A step that only removes rows follows the state before it. -/
theorem Directory.follows_of_shrinks {later : Directory}
    (shrinks : Shrinks directory.world.db later.world.db)
    (same : later.assigned = directory.assigned) : directory.Follows later :=
  ⟨shrinks.nextKey, same ▸ List.prefix_refl _, fun _ present =>
    Or.inl (shrinks.sublist.subset present)⟩

/-- An operation that joins nobody follows the state before it. -/
theorem Directory.operate_follows
    (base : ∃ group ∈ directory.world.db.segment.rows, group.id = 1) {operation : Operation}
    (other : ¬ operation.Joins) : directory.Follows (directory.operate environment operation) := by
  refine follows_of_shrinks (operate_shrinks base other) ?_
  unfold operate
  dsimp only
  split <;> rfl

namespace MembershipTask

/-- A transaction that waits stays tracked. -/
theorem Tracked.mono {later : Directory} (tracked : task.Tracked directory)
    (follows : directory.Follows later) : task.Tracked later where
  below pair mine := Int.lt_of_lt_of_le (tracked.below pair mine) follows.nextKey
  seen seen since := le_trans (tracked.seen seen since) follows.assigned.length_le
  overtaking pair mine seen since row present same := by
    rcases follows.rows row present with old | new | fresh
    · have before := tracked.overtaking pair mine seen since row old same
      obtain ⟨added, grown⟩ := follows.assigned
      rw [← grown, List.drop_append_of_le_length (tracked.seen seen since)]
      exact List.mem_append_left _ before
    · exact (List.drop_sublist_drop_left _ (tracked.seen seen since)).subset new
    · have below := tracked.below pair mine
      rw [← same] at below
      exact absurd below (Int.not_lt_of_ge fresh)

/-- A task without a pair has nothing to keep track of. -/
theorem tracked_of_unpaired (unpaired : task.pair = none) (unchecked : task.since = none) :
    task.Tracked directory where
  below pair mine := absurd (unpaired ▸ mine) (Option.not_mem_none pair)
  seen seen since := absurd (unchecked ▸ since) (Option.not_mem_none seen)
  overtaking pair mine := absurd (unpaired ▸ mine) (Option.not_mem_none pair)

/-- A task is tracked from its start. -/
theorem launch_tracked {request : MembershipRequest}
    (launched : launch directory.world.db request = some task) : task.Tracked directory := by
  cases request with
  | assignGroup assignGroupDto =>
      obtain ⟨⟨member, group⟩, found, rfl⟩ := Option.map_eq_some_iff.mp launched
      cases outcome : findAssigned directory.world.db assignGroupDto with
      | error exception =>
          rw [outcome] at found
          cases found
      | ok assigned =>
          rw [outcome] at found
          cases found
          have groupIn := (findAssigned_eq_ok outcome).2.2
          refine ⟨fun pair mine => ?_, fun seen since => ?_, fun pair _ seen since => ?_⟩
          · cases mine
            exact directory.world.db.segment.keys_below group groupIn
          · cases since
          · cases since
  | disassignGroup memberId groupId =>
      obtain ⟨memberGroups, -, rfl⟩ := Option.map_eq_some_iff.mp launched
      exact tracked_of_unpaired rfl rfl
  | createGroup groupName =>
      obtain ⟨admin, -, rfl⟩ := Option.map_eq_some_iff.mp launched
      exact tracked_of_unpaired rfl rfl

/-- Until it commits, an assignment changes nothing that is committed. -/
theorem advance_checked_db (directory : Directory) (member : Member) (group : Group)
    (seen : Nat) :
    (advance directory (.checked member group seen)).1.world.db = directory.world.db ∧
      (advance directory (.checked member group seen)).1.assigned = directory.assigned := by
  cases admitted : insertAssigned directory.world.db member group with
  | error exception => simp only [advance, admitted, and_self]
  | ok _ => simp only [advance, admitted, and_self]

/-- An assignment that goes on is tracked: its check has found no membership. -/
theorem advance_tracked {later : MembershipTask} (tracked : task.Tracked directory)
    (advanced : later ∈ (advance directory task).2) :
    later.Tracked (advance directory task).1 := by
  cases task with
  | found member group =>
      obtain ⟨_, passed, rfl⟩ := Option.map_eq_some_iff.mp advanced
      refine ⟨tracked.below, fun seen since => ?_, fun pair mine _ _ row present same => ?_⟩
      · cases since
        exact le_refl _
      · cases mine
        cases checked : checkAssigned directory.world.db member group with
        | error exception =>
            rw [checked] at passed
            cases passed
        | ok _ =>
            rw [checkAssigned, throwIf_eq_ok] at checked
            refine (checked (findByMemberAndGroup_ne_nil.mpr ?_)).elim
            exact hasMembership_iff.mp ⟨row, present, same⟩
  | checked member group seen =>
      obtain ⟨sameDb, sameAssigned⟩ := advance_checked_db directory member group seen
      cases admitted : insertAssigned directory.world.db member group with
      | error exception =>
          simp only [advance, admitted] at advanced
          cases advanced
      | ok _ =>
          simp only [advance, admitted] at advanced ⊢
          cases advanced
          exact ⟨tracked.below, tracked.seen, tracked.overtaking⟩
  | inserted member group seen => cases advanced
  | selected memberGroups => cases advanced
  | named groupName admin => cases advanced

/-- A step of a transaction commits a membership it has inserted, or one to a new group. -/
theorem advance_follows (directory : Directory) (task : MembershipTask) :
    directory.Follows (advance directory task).1 := by
  cases task with
  | found member group => exact directory.follows_of_shrinks (.refl _) rfl
  | checked member group seen =>
      obtain ⟨sameDb, sameAssigned⟩ := advance_checked_db directory member group seen
      exact directory.follows_of_shrinks (sameDb ▸ .refl _) sameAssigned
  | inserted member group seen =>
      obtain ⟨after, same, rows, assigned⟩ := advance_inserted directory member group seen
      refine ⟨same ▸ Int.le_refl _, assigned ▸ List.prefix_append _ _, fun row present => ?_⟩
      rw [same] at present
      rcases List.mem_append.mp (rows ▸ present) with old | new
      · exact Or.inl old
      · refine Or.inr (Or.inl ?_)
        rw [assigned, List.drop_left]
        exact new
  | selected memberGroups =>
      refine directory.follows_of_shrinks ?_ (directory.finish_assigned _)
      rw [advance, Directory.finish_db]
      exact deleteSelected_shrinks directory.world.db memberGroups
  | named groupName admin =>
      rcases saveNamed_cases directory.world.db groupName admin with same | ⟨next, saved, same⟩
      · refine directory.follows_of_shrinks ?_ (directory.finish_assigned _)
        rw [advance, Directory.finish_db, same]
        exact .refl _
      · obtain ⟨-, segmentKey, rows⟩ := saveNamed_eq_ok saved
        have committed := (directory.finish_db _).trans same
        refine ⟨?_, (directory.finish_assigned _) ▸ List.prefix_refl _, fun row present => ?_⟩
        · rw [advance, committed]
          omega
        · rw [advance, committed, rows] at present
          rcases List.mem_append.mp present with old | new
          · exact Or.inl old
          · rw [List.mem_singleton.mp new]
            exact Or.inr (Or.inr (Int.le_refl _))

/-- A turn of a tracked task keeps the keys given. -/
theorem advance_groupsGiven (given : GroupsGiven directory.world.db)
    (tracked : task.Tracked directory) :
    GroupsGiven (advance directory task).1.world.db := by
  cases task with
  | found member group => exact given
  | checked member group seen =>
      rw [(advance_checked_db directory member group seen).1]
      exact given
  | inserted member group seen =>
      obtain ⟨after, same, rows, -⟩ := advance_inserted directory member group seen
      rw [same]
      refine ⟨given.base, fun memberGroup present => ?_⟩
      change memberGroup ∈ after.rows at present
      rw [rows] at present
      rcases List.mem_append.mp present with old | new
      · exact given.below memberGroup old
      · rw [List.mem_singleton.mp new]
        exact tracked.below (member.id, group.id) rfl
  | selected memberGroups =>
      rw [advance, Directory.finish_db]
      exact (deleteSelected_shrinks directory.world.db memberGroups).groupsGiven given
  | named groupName admin =>
      rw [advance, Directory.finish_db]
      rcases saveNamed_cases directory.world.db groupName admin with same | ⟨next, saved, same⟩
      · rw [same]
        exact given
      · rw [same]
        obtain ⟨⟨kept, segmentRows⟩, segmentKey, rows⟩ := saveNamed_eq_ok saved
        obtain ⟨base, present, named⟩ := given.base
        refine ⟨⟨base, segmentRows ▸ List.mem_append_left _ present, named⟩,
          fun memberGroup stored => ?_⟩
        rw [rows] at stored
        rcases List.mem_append.mp stored with old | new
        · exact Int.lt_trans (given.below memberGroup old) (segmentKey ▸ Int.lt_succ _)
        · rw [List.mem_singleton.mp new, segmentKey]
          exact Int.lt_succ _

/-- An assignment that commits has been overtaken exactly when its membership is stored. -/
theorem Tracked.overtaken_iff {member : Member} {seen : Nat}
    (tracked : (inserted member group seen).Tracked directory) :
    (inserted member group seen).Overtaken directory ↔
      HasMembership directory.world.db (member.id, group.id) := by
  constructor
  · rintro ⟨row, -, same, present⟩
    exact ⟨row, present, same⟩
  · rintro ⟨row, present, same⟩
    exact ⟨row, tracked.overtaking _ rfl seen rfl row present same, same, present⟩

/-- A step of a transaction keeps the memberships apart unless it commits one
that has been overtaken. -/
theorem apart_advance_iff (given : GroupsGiven directory.world.db)
    (tracked : task.Tracked directory) (apart : MembershipsApart directory.world.db) :
    MembershipsApart (advance directory task).1.world.db ↔ ¬ task.Overtaken directory := by
  cases task with
  | found member group => exact iff_of_true apart id
  | checked member group seen =>
      rw [(advance_checked_db directory member group seen).1]
      exact iff_of_true apart id
  | inserted member group seen =>
      obtain ⟨after, same, rows, -⟩ := advance_inserted directory member group seen
      rw [same]
      exact (membershipsApart_append rows).trans
        ((and_iff_right apart).trans (not_congr tracked.overtaken_iff.symm))
  | selected memberGroups =>
      rw [advance, Directory.finish_db]
      exact iff_of_true ((deleteSelected_shrinks _ memberGroups).apart apart) id
  | named groupName admin =>
      rw [advance, Directory.finish_db]
      rcases saveNamed_cases directory.world.db groupName admin with same | ⟨next, saved, same⟩
      · rw [same]
        exact iff_of_true apart id
      · rw [same]
        obtain ⟨-, -, rows⟩ := saveNamed_eq_ok saved
        refine iff_of_true ((membershipsApart_append rows).mpr ⟨apart, ?_⟩) id
        rintro ⟨memberGroup, present, pair⟩
        have fresh := given.below memberGroup present
        rw [Prod.mk.injEq] at pair
        exact absurd pair.2 (Int.ne_of_lt fresh)

end MembershipTask

/-! ### Runs -/

/-- What holds in every interleaving. -/
def Enrolled : Tasks.State Directory MembershipTask → Prop :=
  Tasks.Sound (fun directory => GroupsGiven directory.world.db) fun directory task =>
    task.Tracked directory

/-- Every step keeps the invariant. -/
theorem Enrolled.step (enrolled : Enrolled state) :
    Enrolled ((enrolment environment).step state action) := by
  obtain ⟨given, tracked⟩ := enrolled
  apply Tasks.Sound.step ⟨given, tracked⟩
  · rintro request task - launched
    exact MembershipTask.launch_tracked launched
  · rintro position task rfl found
    have mine := tracked task (List.mem_of_getElem? found)
    refine ⟨MembershipTask.advance_groupsGiven given mine,
      fun later advanced => MembershipTask.advance_tracked mine advanced, fun other waiting => ?_⟩
    exact (tracked other (Tasks.mem_of_mem_eraseIdx waiting)).mono
      (MembershipTask.advance_follows state.shared task)
  · rintro operation rfl
    have shrinks := @Directory.operate_shrinks environment _ given.base _ operation.2
    exact ⟨shrinks.groupsGiven given, fun task waiting =>
      (tracked task waiting).mono (Directory.operate_follows given.base operation.2)⟩

/-- The state before the first transaction. -/
def Directory.start (world : World) : Directory where
  world := world
  inserted := []
  assigned := []

/-- The invariant holds at the start. -/
theorem enrolled_start (reached : Application.Reachable environment world) :
    Enrolled (Tasks.start (.start world)) := by
  refine Tasks.sound_start ⟨reached.intact.baseGroup, fun memberGroup present => ?_⟩
  obtain ⟨group, stored, named⟩ := reached.intact.referring.groups memberGroup present
  exact named ▸ world.db.segment.keys_below group stored

/-- A step keeps memberships apart exactly when no assignment commits second. -/
theorem apart_step_iff (enrolled : Enrolled state)
    (apart : MembershipsApart state.shared.world.db) :
    MembershipsApart ((enrolment environment).step state action).shared.world.db ↔
      CommitsFirst state action := by
  cases action with
  | launch request => exact iff_of_true apart trivial
  | operate operation =>
      exact iff_of_true ((state.shared.operate_shrinks enrolled.valid.base operation.2).apart apart)
        trivial
  | advance position =>
      change _ ↔ ∀ task ∈ state.tasks[position]?, ¬ task.Overtaken state.shared
      cases found : state.tasks[position]? with
      | none =>
          rw [Tasks.System.step, found]
          exact iff_of_true apart fun task absent => absurd absent (Option.not_mem_none task)
      | some task =>
          rw [Tasks.System.step, found]
          have tracked := enrolled.holds task (List.mem_of_getElem? found)
          refine (MembershipTask.apart_advance_iff enrolled.valid tracked apart).trans ?_
          exact ⟨fun first _ same => Option.some.inj same ▸ first, fun first => first task rfl⟩

theorem MembershipsApart.listsOnce (apart : MembershipsApart db) : ListsOnce db := by
  intro member
  rw [List.nodup_iff_pairwise_ne, List.pairwise_map]
  exact (pcsOfMember_ascends apart).imp Int.ne_of_lt

/-- In any interleaving of assignments, disassignments and creations of groups,
with each other and with all other operations, no user is ever in a group twice if
and only if no assignment commits after another one of the same user and group has
committed since its check, unless that one's membership is gone by then; and then no PC is
ever listed twice to a user. -/
theorem memberships_apart_iff (reached : Application.Reachable environment world) :
    (Along (enrolment environment).step
        (fun state action =>
          MembershipsApart ((enrolment environment).step state action).shared.world.db)
        (Tasks.start (.start world)) actions ↔
      Along (enrolment environment).step CommitsFirst (Tasks.start (.start world)) actions) ∧
    (Along (enrolment environment).step CommitsFirst (Tasks.start (.start world)) actions →
      Along (enrolment environment).step
        (fun state action => ListsOnce ((enrolment environment).step state action).shared.world.db)
        (Tasks.start (.start world)) actions) := by
  have start := @enrolled_start environment world reached
  have apart := reached.intact.membershipsApart
  refine ⟨along_property_iff Enrolled (fun state => MembershipsApart state.shared.world.db)
    (fun _ _ enrolled => enrolled.step) (fun _ _ enrolled apart => apart_step_iff enrolled apart)
    start apart, fun commits => ?_⟩
  refine commits.imp_of_invariant
    (fun state => Enrolled state ∧ MembershipsApart state.shared.world.db) ?_ ?_ ⟨start, apart⟩
  · intro state action first before
    exact ⟨before.1.step, (apart_step_iff before.1 before.2).mpr first⟩
  · intro state action first before
    exact ((apart_step_iff before.1 before.2).mpr first).listsOnce

/-! ### Two assignments of one user -/

/-- A user beside the laboratory. -/
def kimBesideLab : World :=
  run (step .dev) (initial .dev) [createLab, registerInLab "PC-1",
    .createUser { username := some "kim", password := some "secret"
                  passwordConfirm := some "secret" }]

/-- The call that assigns the user with id 2 to the group with id 2. -/
def assignKim : MembershipAction :=
  .launch (.assignGroup { selectedGroupId := some 2, selectedUserId := some 2 })

/-- The second assignment starts after the first one and is refused. -/
theorem kim_joins_once :
    Along (enrolment .dev).step
      (fun state action => MembershipsApart ((enrolment .dev).step state action).shared.world.db)
      (Tasks.start (.start kimBesideLab))
      [assignKim, .advance 0, .advance 0, .advance 0, assignKim, .advance 0] :=
  (@memberships_apart_iff .dev kimBesideLab _ ⟨_, rfl⟩).1.mpr (by decide +kernel)

/-- The second assignment makes its check before the first one commits: the user
is in the laboratory twice, and its PC is listed twice. -/
theorem kim_joins_twice :
    (¬ ∀ (environment : Environment) (world : World)
        (actions : List MembershipAction), Application.Reachable environment world →
      MembershipsApart (run (enrolment environment).step
        (Tasks.start (.start world)) actions).shared.world.db) ∧
    ¬ ∀ (environment : Environment) (world : World)
        (actions : List MembershipAction), Application.Reachable environment world →
      ListsOnce (run (enrolment environment).step
        (Tasks.start (.start world)) actions).shared.world.db := by
  constructor
  · intro apart
    have twice := apart .dev kimBesideLab
      [assignKim, assignKim, .advance 0, .advance 0, .advance 0, .advance 0, .advance 0,
        .advance 0] ⟨_, rfl⟩
    revert twice
    unfold MembershipsApart
    decide +kernel
  · intro once
    have twice := once .dev kimBesideLab
      [assignKim, assignKim, .advance 0, .advance 0, .advance 0, .advance 0, .advance 0,
        .advance 0] ⟨_, rfl⟩ kimInLab
    revert twice
    decide +kernel

end MegaVnc
