import MegaVnc.System.Frame

/-! # What an operation does to groups, users and memberships

Each request of the administration changes these tables in its own way, a change
of password writes one member, and a start adds the base group and the
administrator where they are missing. No other operation touches the three.
-/

namespace MegaVnc

open Relational Fallible Application

/-- All that an operation can do to the users, the groups and the memberships. -/
inductive DirectoryEffect (environment : Environment) (db : Database) :
    Operation → Database → Prop where
  | kept {operation : Operation} {next : Database} (segment : next.segment.rows = db.segment.rows)
      (member : next.member.rows = db.member.rows)
      (memberGroup : next.memberGroup.rows = db.memberGroup.rows) :
      DirectoryEffect environment db operation next
  | groupCreated {groupName kept : Option String} {next : Database} {admin : Member}
      (keeps : nullableVarchar groupName = some kept) (new : db.findByGroupName kept = none)
      (found : db.findByRole .roleAdmin = .ok (some admin))
      (segment : next.segment.rows = db.segment.rows ++
        [Group.createGroup kept db.segment.nextKey])
      (member : next.member.rows = db.member.rows)
      (memberGroup : next.memberGroup.rows = db.memberGroup.rows ++
        [MemberGroup.assignGroup admin.id db.segment.nextKey db.memberGroup.nextKey]) :
      DirectoryEffect environment db (.createGroup groupName) next
  | groupDeleted {groupId : Long} {next : Database} (other : groupId ≠ 1)
      (segment : next.segment.rows =
        (db.segment.deleteWhere fun group => group.id = groupId).rows)
      (member : next.member.rows = db.member.rows)
      (memberGroup : next.memberGroup.rows =
        (db.memberGroup.deleteWhere fun memberGroup => memberGroup.group = groupId).rows) :
      DirectoryEffect environment db (.deleteGroup groupId) next
  | userRegistered {user : UserRegisterDto} {kept : Option String} {password : String}
      {next : Database} (keeps : nullableVarchar user.username = some kept)
      (new : db.findByUsername kept = none)
      (segment : next.segment.rows = db.segment.rows)
      (member : next.member.rows = db.member.rows ++ [Member.createMember
        environment.encodePassword kept password .roleUser db.member.nextKey])
      (memberGroup : next.memberGroup.rows = db.memberGroup.rows) :
      DirectoryEffect environment db (.createUser user) next
  | userDeleted {memberId : Long} {next : Database} {old : Member} (present : old ∈ db.member.rows)
      (named : old.id = memberId) (plain : old.role ≠ .roleAdmin)
      (segment : next.segment.rows = db.segment.rows)
      (member : next.member.rows = (db.member.deleteWhere fun row => row.id = memberId).rows)
      (memberGroup : next.memberGroup.rows =
        (db.memberGroup.deleteWhere fun memberGroup => memberGroup.member = memberId).rows) :
      DirectoryEffect environment db (.deleteUser memberId) next
  | assigned {assignGroupDto : AssignGroupDto} {next : Database} {assignee : Member}
      {group : Group} (assigneeIn : assignee ∈ db.member.rows) (groupIn : group ∈ db.segment.rows)
      (new : db.findByMemberAndGroup assignee group.id = [])
      (segment : next.segment.rows = db.segment.rows)
      (member : next.member.rows = db.member.rows)
      (memberGroup : next.memberGroup.rows = db.memberGroup.rows ++
        [MemberGroup.assignGroup assignee.id group.id db.memberGroup.nextKey]) :
      DirectoryEffect environment db (.assignGroup assignGroupDto) next
  | disassigned {memberId groupId : Long} {next : Database}
      (segment : next.segment.rows = db.segment.rows)
      (member : next.member.rows = db.member.rows)
      (memberGroup : next.memberGroup.rows = (db.memberGroup.deleteWhere fun memberGroup =>
        memberGroup.member = memberId ∧ memberGroup.group = groupId).rows) :
      DirectoryEffect environment db (.disassignGroup memberId groupId) next
  | passwordChanged {changePassword : ChangePasswordDto} {user : User} {newPassword : String}
      {next : Database} {old : Member} (present : old ∈ db.member.rows)
      (segment : next.segment.rows = db.segment.rows)
      (member : next.member.rows = Table.replace db.member.rows
        (old.changePassword environment.encodePassword newPassword))
      (memberGroup : next.memberGroup.rows = db.memberGroup.rows) :
      DirectoryEffect environment db (.processChangePassword changePassword user) next
  | started {lostKeys : Nat} {next : Database}
      (segment : next.segment.rows = db.segment.rows ∨
        ∀ group ∈ db.segment.rows, group.id ≠ 1)
      (member : next.member.rows = db.member.rows ∨
        ∀ member ∈ db.member.rows, member.username ≠ some "admin")
      (memberGroup : next.memberGroup.rows = db.memberGroup.rows) :
      DirectoryEffect environment db (.dataLoader lostKeys) next

variable {environment : Environment} {world : World} {operation : Operation}

/-- An operation that writes none of the three tables keeps them. -/
theorem DirectoryEffect.of_unwritten (segment : TableName.segment ∉ operation.writes)
    (member : TableName.member ∉ operation.writes)
    (memberGroup : TableName.memberGroup ∉ operation.writes) :
    DirectoryEffect environment world.db operation (step environment world operation).db := by
  have sameSegment : (step environment world operation).db.segment = world.db.segment :=
    step_same segment
  have sameMember : (step environment world operation).db.member = world.db.member :=
    step_same member
  have sameMemberGroup : (step environment world operation).db.memberGroup =
      world.db.memberGroup := step_same memberGroup
  exact .kept (congrArg Table.rows sameSegment) (congrArg Table.rows sameMember)
    (congrArg Table.rows sameMemberGroup)

/-- A transaction that fails keeps the three tables. -/
theorem transact_directoryEffect {transaction : Except Exception (Reply × Database)}
    (effect : ∀ reply db, transaction = .ok (reply, db) →
      DirectoryEffect environment world.db operation db) :
    DirectoryEffect environment world.db operation (transact world transaction).2.db :=
  transact_holds (DirectoryEffect environment world.db operation) (.kept rfl rfl rfl) effect

/-- A start adds the base group and the administrator where they are missing. -/
theorem dataLoader_directoryEffect {lostKeys : Nat} :
    DirectoryEffect environment world.db (.dataLoader lostKeys)
      (step environment world (.dataLoader lostKeys)).db := by
  change DirectoryEffect _ _ _
    (MegaVncApplication.dataLoader environment.encodePassword (world.db.skipKeys lostKeys)).2
  have memberGroup := MegaVncApplication.dataLoader_keeps (fun db => db.memberGroup.rows)
    (fun _ _ => rfl) (fun _ _ => rfl) (fun _ _ => rfl) environment.encodePassword_fits
    (world.db.skipKeys lostKeys)
  rcases MegaVncApplication.dataLoader_stages environment.encodePassword
    (world.db.skipKeys lostKeys) with same | ⟨grouped, groupLoaded, later⟩
  · rw [same]
    exact .kept rfl rfl rfl
  have segment : grouped.segment.rows = world.db.segment.rows ∨
      ∀ group ∈ world.db.segment.rows, group.id ≠ 1 := by
    rcases MegaVncApplication.loadBaseGroup_eq_ok groupLoaded with ⟨-, rfl⟩ | ⟨missing, -⟩
    · exact Or.inl rfl
    · exact Or.inr missing
  have groupedMember : grouped.member.rows = world.db.member.rows := by
    rcases MegaVncApplication.loadBaseGroup_eq_ok groupLoaded with ⟨-, rfl⟩ | ⟨-, after, rfl, -⟩
    · rfl
    · rfl
  rcases later with same | ⟨administered, adminLoaded, last⟩
  · refine .started ?_ (Or.inl ?_) memberGroup
    · rwa [same]
    · rwa [same]
  have adminSegment : administered.segment.rows = grouped.segment.rows := by
    rcases MegaVncApplication.loadAdmin_eq_ok environment.encodePassword_fits
      adminLoaded with ⟨-, rfl⟩ | ⟨-, after, rfl, -⟩
    · rfl
    · rfl
  have member : administered.member.rows = world.db.member.rows ∨
      ∀ member ∈ world.db.member.rows, member.username ≠ some "admin" := by
    rcases MegaVncApplication.loadAdmin_eq_ok environment.encodePassword_fits
      adminLoaded with ⟨-, rfl⟩ | ⟨missing, -⟩
    · exact Or.inl groupedMember
    · rw [groupedMember] at missing
      exact Or.inr missing
  rw [← adminSegment] at segment
  rcases last with same | baseLoaded
  · rw [same] at memberGroup ⊢
    exact .started segment member memberGroup
  · rcases MegaVncApplication.loadBasePc_eq_ok baseLoaded with ⟨-, same⟩ | ⟨-, -, after, same, -⟩
    · rw [same] at memberGroup ⊢
      exact .started segment member memberGroup
    · rw [same] at memberGroup ⊢
      exact .started segment member memberGroup

/-- What any operation does to groups, users and memberships. -/
theorem step_directoryEffect (environment : Environment) (world : World) (operation : Operation) :
    DirectoryEffect environment world.db operation (step environment world operation).db := by
  cases operation with
  | dataLoader lostKeys => exact dataLoader_directoryEffect
  | createGroup groupName =>
      apply transact_directoryEffect
      intro reply db ok
      obtain ⟨registered, rfl⟩ := done_eq_ok.mp ok
      obtain ⟨_, keeps, new, admin, found, segment, memberGroup, rfl, segmentRows, -,
        memberGroupRows⟩ := AdminGroupService.register_eq_ok registered
      exact .groupCreated keeps new found segmentRows rfl memberGroupRows
  | deleteGroup groupId =>
      apply transact_directoryEffect
      intro reply db ok
      obtain ⟨deleted, rfl⟩ := done_eq_ok.mp ok
      obtain ⟨other, rfl⟩ := AdminGroupService.deleteGroup_eq_ok deleted
      exact .groupDeleted other rfl rfl rfl
  | createUser user =>
      apply transact_directoryEffect
      intro reply db ok
      obtain ⟨registered, rfl⟩ := done_eq_ok.mp ok
      obtain ⟨_, keeps, new, password, member, rfl, rows, -⟩ :=
        AdminUserService.register_eq_ok environment.encodePassword_fits registered
      exact .userRegistered keeps new rfl rows rfl
  | deleteUser memberId =>
      apply transact_directoryEffect
      intro reply db ok
      obtain ⟨deleted, rfl⟩ := done_eq_ok.mp ok
      obtain ⟨⟨old, present, named, plain⟩, rfl⟩ := AdminUserService.deleteUser_eq_ok deleted
      exact .userDeleted present named plain rfl rfl rfl
  | assignGroup assignGroupDto =>
      apply transact_directoryEffect
      intro reply db ok
      obtain ⟨assigned, rfl⟩ := done_eq_ok.mp ok
      obtain ⟨assignee, assigneeIn, group, groupIn, new, memberGroup, rfl, rows⟩ :=
        AdminAssignService.assignGroup_eq_ok assigned
      exact .assigned assigneeIn groupIn new rfl rfl rows
  | disassignGroup memberId groupId =>
      apply transact_directoryEffect
      intro reply db ok
      obtain ⟨disassigned, rfl⟩ := done_eq_ok.mp ok
      obtain ⟨-, rfl⟩ := AdminAssignService.disassignGroup_eq_ok disassigned
      exact .disassigned rfl rfl rfl
  | processChangePassword changePassword user =>
      apply transact_directoryEffect
      intro reply db ok
      obtain ⟨view, changed, rfl⟩ := (answered_eq_ok .view).mp ok
      rcases ChangePasswordController.processChangePassword_eq_ok changed with
        rfl | ⟨old, present, newPassword, after, rfl, rows, -⟩
      · exact .kept rfl rfl rfl
      · exact .passwordChanged present rfl rows rfl
  | _ =>
      exact .of_unwritten (by simp [Operation.writes]) (by simp [Operation.writes])
        (by simp [Operation.writes])

/-- Users are registered, deleted, and given new passwords, as long as the
administrator is there. -/
theorem DirectoryEffect.member_rows {db next : Database}
    (effect : DirectoryEffect environment db operation next)
    (admin : ∃ member ∈ db.member.rows, member.username = some "admin") :
    next.member.rows = db.member.rows ∨
      (∃ (user : UserRegisterDto) (kept : Option String) (password : String),
        operation = .createUser user ∧ nullableVarchar user.username = some kept ∧
        db.findByUsername kept = none ∧
        next.member.rows = db.member.rows ++ [Member.createMember environment.encodePassword
          kept password .roleUser db.member.nextKey]) ∨
      (∃ old ∈ db.member.rows, old.role ≠ .roleAdmin ∧
        next.member.rows = (db.member.deleteWhere fun row => row.id = old.id).rows) ∨
      ∃ old ∈ db.member.rows, ∃ newPassword, next.member.rows =
        Table.replace db.member.rows (old.changePassword environment.encodePassword
          newPassword) := by
  cases effect with
  | kept segment member memberGroup => exact Or.inl member
  | groupCreated keeps new found segment member memberGroup => exact Or.inl member
  | groupDeleted other segment member memberGroup => exact Or.inl member
  | assigned assigneeIn groupIn new segment member memberGroup => exact Or.inl member
  | disassigned segment member memberGroup => exact Or.inl member
  | started segment member memberGroup =>
      rcases member with same | missing
      · exact Or.inl same
      · obtain ⟨first, present, named⟩ := admin
        exact (missing first present named).elim
  | @userRegistered user kept password _ keeps new segment member memberGroup =>
      exact Or.inr (Or.inl ⟨user, kept, password, rfl, keeps, new, member⟩)
  | userDeleted present named plain segment member memberGroup =>
      subst named
      exact Or.inr (Or.inr (Or.inl ⟨_, present, plain, member⟩))
  | passwordChanged present segment member memberGroup =>
      exact Or.inr (Or.inr (Or.inr ⟨_, present, _, member⟩))

/-- A new user has the next id; an old one keeps its name and its role. -/
theorem DirectoryEffect.old_member {db next : Database}
    (effect : DirectoryEffect environment db operation next)
    (admin : ∃ member ∈ db.member.rows, member.username = some "admin") {member : Member}
    (present : member ∈ next.member.rows) :
    (∃ old ∈ db.member.rows,
        old.id = member.id ∧ old.username = member.username ∧ old.role = member.role) ∨
      member.id = db.member.nextKey := by
  rcases effect.member_rows admin with rows | ⟨user, kept, password, -, -, -, rows⟩ |
    ⟨old, -, -, rows⟩ | ⟨old, oldIn, newPassword, rows⟩ <;> rw [rows] at present
  · exact Or.inl ⟨member, present, rfl, rfl, rfl⟩
  · rcases List.mem_append.mp present with stored | added
    · exact Or.inl ⟨member, stored, rfl, rfl, rfl⟩
    · exact Or.inr (congrArg Member.id (List.mem_singleton.mp added))
  · exact Or.inl ⟨member, (Table.mem_deleteWhere.mp present).1, rfl, rfl, rfl⟩
  · rcases Table.mem_replace.mp present with ⟨stored, -⟩ | ⟨rfl, -⟩
    · exact Or.inl ⟨member, stored, rfl, rfl, rfl⟩
    · exact Or.inl ⟨old, oldIn, rfl, rfl, rfl⟩

/-- Groups are created and deleted, as long as the base group is there. -/
theorem DirectoryEffect.segment_rows {db next : Database}
    (effect : DirectoryEffect environment db operation next)
    (base : ∃ group ∈ db.segment.rows, group.id = 1) :
    next.segment.rows = db.segment.rows ∨
      (∃ groupName, db.findByGroupName groupName = none ∧
        next.segment.rows = db.segment.rows ++ [Group.createGroup groupName db.segment.nextKey]) ∨
      ∃ groupId, next.segment.rows =
        (db.segment.deleteWhere fun group => group.id = groupId).rows := by
  cases effect with
  | kept segment member memberGroup => exact Or.inl segment
  | userRegistered keeps new segment member memberGroup => exact Or.inl segment
  | userDeleted present named plain segment member memberGroup => exact Or.inl segment
  | assigned assigneeIn groupIn new segment member memberGroup => exact Or.inl segment
  | disassigned segment member memberGroup => exact Or.inl segment
  | passwordChanged present segment member memberGroup => exact Or.inl segment
  | started segment member memberGroup =>
      rcases segment with same | missing
      · exact Or.inl same
      · obtain ⟨first, present, named⟩ := base
        exact (missing first present named).elim
  | groupCreated keeps new found segment member memberGroup =>
      exact Or.inr (Or.inl ⟨_, new, segment⟩)
  | groupDeleted other segment member memberGroup => exact Or.inr (Or.inr ⟨_, segment⟩)

/-- A new group has the next id. -/
theorem DirectoryEffect.old_group {db next : Database}
    (effect : DirectoryEffect environment db operation next)
    (base : ∃ group ∈ db.segment.rows, group.id = 1) {group : Group}
    (member : group ∈ next.segment.rows) :
    group ∈ db.segment.rows ∨ group.id = db.segment.nextKey := by
  rcases effect.segment_rows base with rows | ⟨groupName, -, rows⟩ | ⟨groupId, rows⟩ <;>
    rw [rows] at member
  · exact Or.inl member
  · rcases List.mem_append.mp member with old | added
    · exact Or.inl old
    · exact Or.inr (congrArg Group.id (List.mem_singleton.mp added))
  · exact Or.inl (Table.mem_deleteWhere.mp member).1

/-- The ids of groups are given out in order, as long as the base group is there. -/
theorem segment_nextKey_le_step (base : ∃ group ∈ world.db.segment.rows, group.id = 1) :
    world.db.segment.nextKey ≤ (step environment world operation).db.segment.nextKey := by
  by_cases written : TableName.segment ∈ operation.writes
  · cases operation with
    | dataLoader lostKeys =>
        have same : (step environment world (.dataLoader lostKeys)).db.segment =
            (world.db.skipKeys lostKeys).segment := by
          change (MegaVncApplication.dataLoader environment.encodePassword
            (world.db.skipKeys lostKeys)).2.segment = _
          exact MegaVncApplication.dataLoader_segment environment.encodePassword_fits base
        rw [same]
        exact Int.le_add_of_nonneg_right (Int.natCast_nonneg lostKeys)
    | createGroup groupName =>
        refine transact_holds (fun db => world.db.segment.nextKey ≤ db.segment.nextKey)
          (Int.le_refl _) fun reply db ok => ?_
        obtain ⟨registered, rfl⟩ := done_eq_ok.mp ok
        obtain ⟨_, -, -, admin, -, segment, memberGroup, rfl, -, nextKey, -⟩ :=
          AdminGroupService.register_eq_ok registered
        change _ ≤ segment.nextKey
        omega
    | deleteGroup groupId =>
        refine transact_holds (fun db => world.db.segment.nextKey ≤ db.segment.nextKey)
          (Int.le_refl _) fun reply db ok => ?_
        obtain ⟨deleted, rfl⟩ := done_eq_ok.mp ok
        obtain ⟨-, rfl⟩ := AdminGroupService.deleteGroup_eq_ok deleted
        exact Int.le_refl _
    | _ => simp [Operation.writes] at written
  · have same : (step environment world operation).db.segment = world.db.segment :=
      step_same written
    rw [same]

/-- The ids of users are given out in order, as long as nothing is left to load. -/
theorem member_nextKey_le_step (base : ∃ group ∈ world.db.segment.rows, group.id = 1)
    (admin : ∃ member ∈ world.db.member.rows, member.username = some "admin")
    (basePc : ∃ remotePc ∈ world.db.remotePc.rows, remotePc.repeaterId = 100) :
    world.db.member.nextKey ≤ (step environment world operation).db.member.nextKey := by
  by_cases written : TableName.member ∈ operation.writes
  · cases operation with
    | dataLoader lostKeys =>
        have loaded : (step environment world (.dataLoader lostKeys)).db =
            world.db.skipKeys lostKeys :=
          MegaVncApplication.dataLoader_loaded environment.encodePassword_fits base admin basePc
        rw [loaded]
        exact Int.le_add_of_nonneg_right (Int.natCast_nonneg lostKeys)
    | createUser user =>
        refine transact_holds (fun db => world.db.member.nextKey ≤ db.member.nextKey)
          (Int.le_refl _) fun reply db ok => ?_
        obtain ⟨registered, rfl⟩ := done_eq_ok.mp ok
        obtain ⟨_, -, -, password, member, rfl, -, nextKey⟩ :=
          AdminUserService.register_eq_ok environment.encodePassword_fits registered
        change _ ≤ member.nextKey
        omega
    | deleteUser memberId =>
        refine transact_holds (fun db => world.db.member.nextKey ≤ db.member.nextKey)
          (Int.le_refl _) fun reply db ok => ?_
        obtain ⟨deleted, rfl⟩ := done_eq_ok.mp ok
        obtain ⟨-, rfl⟩ := AdminUserService.deleteUser_eq_ok deleted
        exact Int.le_refl _
    | processChangePassword changePassword user =>
        refine transact_holds (fun db => world.db.member.nextKey ≤ db.member.nextKey)
          (Int.le_refl _) fun reply db ok => ?_
        obtain ⟨view, changed, rfl⟩ := (answered_eq_ok .view).mp ok
        rcases ChangePasswordController.processChangePassword_eq_ok changed with
          rfl | ⟨old, -, newPassword, member, rfl, -, nextKey⟩
        · exact Int.le_refl _
        · exact Int.le_of_eq nextKey.symm
    | _ => simp [Operation.writes] at written
  · have same : (step environment world operation).db.member = world.db.member :=
      step_same written
    rw [same]

end MegaVnc
