import MegaVnc.System.PcViews

/-! # The groups of a member and the groups offered to it

The administration page of a member lists the groups it is in and those it can
be assigned to. The first list leaves out the membership with the id 1 instead
of the default group. The second is made of the memberships of all members, so a
group that has lost its last one is offered to nobody.
-/

namespace MegaVnc

open Relational Fallible Application Transition
open AdminAssignService (listAssignedGroups listUnassignedGroups)

/-- The list shows the groups other than the default group of which the member
has a membership, each once. -/
def ListsAssigned (db : Database) (member : Member) : Prop :=
  ∃ groups, listAssignedGroups db member.id = .ok groups ∧ groups.Nodup ∧
    ∀ group, group ∈ groups ↔
      group ∈ db.segment.rows ∧ group.id ≠ 1 ∧ member.In db group.id

/-- The list shows every group other than the default group of which the member
has no membership, each once, and none of which it has one; and the member can
be assigned to each group of the list. -/
structure Offers (environment : Environment) (world : World) (member : Member)
    (groups : List Group) : Prop where
  listed : listUnassignedGroups world.db member.id = .ok groups
  once : groups.Nodup
  every : ∀ group ∈ world.db.segment.rows, group.id ≠ 1 → ¬ member.In world.db group.id →
    group ∈ groups
  others : ∀ group ∈ groups, group ∈ world.db.segment.rows ∧ ¬ member.In world.db group.id
  assignable : ∀ group ∈ groups, (perform environment world (.assignGroup
    { selectedGroupId := some group.id, selectedUserId := some member.id })).1 = .ok .done

/-- The operation leaves the memberships of the first member, who is the
administrator. -/
def Operation.KeepsAdmin (operation : Operation) : Prop :=
  ∀ groupId, operation ≠ .disassignGroup 1 groupId

variable {environment : Environment} {world : World} {operation : Operation} {db : Database}
  {member : Member} {group : Group}

/-! ### The assigned groups -/

/-- The list follows the membership rows of the member, less the one with id 1. -/
theorem listAssignedGroups_eq (present : member ∈ db.member.rows) :
    listAssignedGroups db member.id =
      .ok (((db.findByMember member).filter fun memberGroup => memberGroup.id ≠ 1).filterMap
        fun memberGroup => db.segment.findById memberGroup.group) := by
  have found : db.member.findById member.id = some member :=
    Table.findById_eq_some.mpr ⟨present, rfl⟩
  simp only [listAssignedGroups, found, orElseThrow, ok_bind]
  rfl

/-- A group is listed exactly when such a row leads to it. -/
theorem mem_listAssignedGroups {groups : List Group} (present : member ∈ db.member.rows)
    (listed : listAssignedGroups db member.id = .ok groups) :
    group ∈ groups ↔ group ∈ db.segment.rows ∧ ∃ memberGroup ∈ db.memberGroup.rows,
      memberGroup.member = member.id ∧ memberGroup.id ≠ 1 ∧ memberGroup.group = group.id := by
  rw [listAssignedGroups_eq present, Except.ok.injEq] at listed
  subst listed
  simp only [List.mem_filterMap, Database.findByMember, List.mem_filter, decide_eq_true_eq,
    Table.findById_eq_some, ne_eq, decide_not, Bool.not_eq_true', decide_eq_false_iff_not]
  constructor
  · rintro ⟨memberGroup, ⟨⟨stored, mine⟩, notFirst⟩, groupIn, named⟩
    exact ⟨groupIn, memberGroup, stored, mine, notFirst, named.symm⟩
  · rintro ⟨groupIn, memberGroup, stored, mine, notFirst, named⟩
    exact ⟨memberGroup, ⟨⟨stored, mine⟩, notFirst⟩, groupIn, named.symm⟩

/-- No group is listed twice while memberships are apart. -/
theorem listAssignedGroups_nodup {groups : List Group} (apart : MembershipsApart db)
    (present : member ∈ db.member.rows) (listed : listAssignedGroups db member.id = .ok groups) :
    groups.Nodup := by
  rw [listAssignedGroups_eq present, Except.ok.injEq] at listed
  subst listed
  have all : (groupsOf db member).Nodup := List.Nodup.of_map _ (groupsOf_apart apart)
  exact (List.filter_sublist.filterMap _).nodup all

/-- A member has one membership of a group. -/
theorem MembershipsApart.eq (apart : MembershipsApart db) {first second : MemberGroup}
    (firstIn : first ∈ db.memberGroup.rows) (secondIn : second ∈ db.memberGroup.rows)
    (sameMember : first.member = second.member) (sameGroup : first.group = second.group) :
    first = second :=
  List.inj_on_of_nodup_map apart firstIn secondIn (Prod.ext sameMember sameGroup)

/-- The list of a member's groups is right if and only if the membership with the
id 1, when it is the member's, is that of the default group, and no other one of
the member is. -/
theorem listsAssigned_iff (reached : Application.Reachable environment world)
    (present : member ∈ world.db.member.rows) :
    ListsAssigned world.db member ↔ ∀ memberGroup ∈ world.db.memberGroup.rows,
      memberGroup.member = member.id → (memberGroup.id = 1 ↔ memberGroup.group = 1) := by
  have intact := reached.intact
  constructor
  · rintro ⟨groups, listed, -, right⟩ memberGroup stored mine
    obtain ⟨group, groupIn, named⟩ := intact.referring.groups memberGroup stored
    have shown := (mem_listAssignedGroups present listed).symm.trans (right group)
    constructor
    · intro first
      by_contra other
      obtain ⟨-, row, rowIn, ours, notFirst, sameGroup⟩ := shown.mpr
        ⟨groupIn, named ▸ other, memberGroup, stored, mine, named.symm⟩
      have same : row = memberGroup := intact.membershipsApart.eq rowIn stored
        (ours.trans mine.symm) (sameGroup.trans named)
      exact notFirst (same ▸ first)
    · intro default
      by_contra notFirst
      have listedToo := shown.mp ⟨groupIn, memberGroup, stored, mine, notFirst, named.symm⟩
      exact listedToo.2.1 (named.trans default)
  · intro ids
    refine ⟨_, listAssignedGroups_eq present, listAssignedGroups_nodup intact.membershipsApart
      present (listAssignedGroups_eq present), fun group => ?_⟩
    rw [mem_listAssignedGroups present (listAssignedGroups_eq present)]
    constructor
    · rintro ⟨groupIn, memberGroup, stored, mine, notFirst, named⟩
      exact ⟨groupIn, fun default => notFirst ((ids memberGroup stored mine).mpr
        (named.trans default)), memberGroup, stored, mine, named⟩
    · rintro ⟨groupIn, other, memberGroup, stored, mine, named⟩
      exact ⟨groupIn, memberGroup, stored, mine,
        fun first => other (named.symm.trans ((ids memberGroup stored mine).mp first)), named⟩

/-- The user is registered and becomes a member of the laboratory. -/
def joinLab : List Operation :=
  [createLab, .createUser { username := some "kim", password := some "secret"
                            passwordConfirm := some "secret" },
    .assignGroup { selectedGroupId := some 2, selectedUserId := some 2 }]

/-- The user who is in the group Lab. -/
def kimInLab : Member :=
  .createMember Environment.dev.encodePassword (some "kim") "secret" .roleUser 2

theorem kimInLab_listsAssigned :
    ListsAssigned (run (step .dev) (initial .dev) joinLab).db kimInLab :=
  (@listsAssigned_iff .dev _ kimInLab ⟨joinLab, rfl⟩ (by decide +kernel)).mpr (by decide +kernel)

/-- The membership with the id 1 is the administrator's in the laboratory, which
is left out of his groups. -/
theorem createLab_unlisted :
    ¬ ∀ (environment : Environment) (world : World), Application.Reachable environment world →
      ∀ member ∈ world.db.member.rows, ListsAssigned world.db member := by
  intro lists
  obtain ⟨groups, listed, -, right⟩ := lists .dev (step .dev (initial .dev) createLab)
    ⟨[createLab], rfl⟩ firstAdmin (by decide +kernel)
  have empty : listAssignedGroups (step .dev (initial .dev) createLab).db firstAdmin.id = .ok [] :=
    by decide +kernel
  cases listed.symm.trans empty
  exact List.not_mem_nil ((right (.createGroup (some "Lab") 2)).mpr (by decide +kernel))

/-! ### The groups offered -/

/-- Some member has a membership of the group. -/
def Joined (db : Database) (group : Long) : Prop :=
  ∃ memberGroup ∈ db.memberGroup.rows, memberGroup.group = group

instance (db : Database) (group : Long) : Decidable (Joined db group) :=
  inferInstanceAs (Decidable (∃ memberGroup ∈ db.memberGroup.rows, memberGroup.group = group))

/-- The query finds the membership rows, of anyone, for groups the member is not in. -/
theorem mem_findByMemberNotContaining {memberGroup : MemberGroup} :
    memberGroup ∈ db.findByMemberNotContaining member ↔
      memberGroup ∈ db.memberGroup.rows ∧ ¬ member.In db memberGroup.group := by
  simp only [Database.findByMemberNotContaining, List.mem_filter, List.mem_map,
    decide_eq_true_eq, Member.In, and_assoc]

/-- The groups on offer are those of the rows found, each once. -/
theorem listUnassignedGroups_eq (present : member ∈ db.member.rows) :
    listUnassignedGroups db member.id =
      .ok (((db.findByMemberNotContaining member).map MemberGroup.group).dedup.filterMap
        fun group => db.segment.findById group) := by
  have found : db.member.findById member.id = some member :=
    Table.findById_eq_some.mpr ⟨present, rfl⟩
  simp only [listUnassignedGroups, found, orElseThrow, ok_bind]
  rfl

/-- A group is offered when another member is in it and the member is not. -/
theorem mem_listUnassignedGroups {groups : List Group} (present : member ∈ db.member.rows)
    (listed : listUnassignedGroups db member.id = .ok groups) :
    group ∈ groups ↔
      group ∈ db.segment.rows ∧ ¬ member.In db group.id ∧ Joined db group.id := by
  rw [listUnassignedGroups_eq present, Except.ok.injEq] at listed
  subst listed
  simp only [List.mem_filterMap, List.mem_dedup, List.mem_map, mem_findByMemberNotContaining,
    Table.findById_eq_some, Joined]
  constructor
  · rintro ⟨groupId, ⟨memberGroup, ⟨stored, notMine⟩, rfl⟩, groupIn, named⟩
    have named : group.id = memberGroup.group := named
    exact ⟨groupIn, named ▸ notMine, memberGroup, stored, named.symm⟩
  · rintro ⟨groupIn, notMine, memberGroup, stored, named⟩
    exact ⟨group.id, ⟨memberGroup, ⟨stored, named ▸ notMine⟩, named⟩, groupIn, rfl⟩

/-- No group is offered twice. -/
theorem listUnassignedGroups_nodup {groups : List Group} (present : member ∈ db.member.rows)
    (listed : listUnassignedGroups db member.id = .ok groups) : groups.Nodup := by
  rw [listUnassignedGroups_eq present, Except.ok.injEq] at listed
  subst listed
  refine (List.nodup_dedup _).filterMap fun id id' group found found' => ?_
  exact (Table.findById_eq_some.mp found).2.symm.trans (Table.findById_eq_some.mp found').2

/-- A member can be assigned to a group it has no membership of. -/
theorem perform_assignGroup (present : member ∈ world.db.member.rows)
    (groupIn : group ∈ world.db.segment.rows) (new : ¬ member.In world.db group.id) :
    (perform environment world (.assignGroup
      { selectedGroupId := some group.id, selectedUserId := some member.id })).1 = .ok .done := by
  have found : world.db.member.findById member.id = some member :=
    Table.findById_eq_some.mpr ⟨present, rfl⟩
  have selected : world.db.segment.findById group.id = some group :=
    Table.findById_eq_some.mpr ⟨groupIn, rfl⟩
  have unassigned : ¬ world.db.findByMemberAndGroup member group.id ≠ [] :=
    fun some => new (findByMemberAndGroup_ne_nil.mp some)
  have free : ∀ row ∈ world.db.memberGroup.rows, ¬ Clash row
      (MemberGroup.assignGroup member.id group.id world.db.memberGroup.nextKey) :=
    fun row _ clash => clash.1 rfl
  have keyed (id : Long) : key (MemberGroup.assignGroup member.id group.id id) = id := rfl
  obtain ⟨after, added⟩ : ∃ after, world.db.memberGroup.insert _ keyed = some after :=
    Table.insert_isSome rfl free
  have saved : world.db.saveMemberGroup member.id group.id =
      .ok { world.db with memberGroup := after } :=
    Database.store_eq_ok.mpr ⟨after, added, rfl⟩
  have assigned : AdminAssignService.assignGroup world.db
      { selectedGroupId := some group.id, selectedUserId := some member.id } =
        .ok { world.db with memberGroup := after } := by
    simp only [AdminAssignService.assignGroup, orElseThrow, found, selected, throwIf, unassigned,
      ↓reduceIte, ok_bind]
    exact saved
  exact congrArg Prod.fst (transact_eq_ok.mpr ⟨_, done_eq_ok.mpr ⟨assigned, rfl⟩, rfl⟩)

/-- A member is offered all groups it can be assigned to if and only if each of
them has some member. -/
theorem offers_iff (present : member ∈ world.db.member.rows) :
    (∃ groups, Offers environment world member groups) ↔
      ∀ group ∈ world.db.segment.rows, group.id ≠ 1 → ¬ member.In world.db group.id →
        Joined world.db group.id := by
  constructor
  · rintro ⟨groups, offers⟩ group groupIn other new
    have offered := offers.every group groupIn other new
    exact ((mem_listUnassignedGroups present offers.listed).mp offered).2.2
  · intro joined
    have listed := @listUnassignedGroups_eq world.db member present
    refine ⟨_, listed, listUnassignedGroups_nodup present listed, ?_, ?_, ?_⟩
    · intro group groupIn other new
      exact (mem_listUnassignedGroups present listed).mpr
        ⟨groupIn, new, joined group groupIn other new⟩
    · intro group offered
      obtain ⟨groupIn, new, -⟩ := (mem_listUnassignedGroups present listed).mp offered
      exact ⟨groupIn, new⟩
    · intro group offered
      obtain ⟨groupIn, new, -⟩ := (mem_listUnassignedGroups present listed).mp offered
      exact perform_assignGroup present groupIn new

/-! ### While the administrator is not disassigned -/

/-- The first member is the administrator and is in every group but the default
one. -/
structure AdminEverywhere (db : Database) : Prop where
  first : ∀ member ∈ db.member.rows, member.role = .roleAdmin → member.id = 1
  joined : ∀ group ∈ db.segment.rows, group.id ≠ 1 →
    ∃ memberGroup ∈ db.memberGroup.rows, memberGroup.member = 1 ∧ memberGroup.group = group.id

/-- Only a registration makes a member, and not an administrator. -/
theorem DirectoryEffect.admin_first {next : Database}
    (effect : DirectoryEffect environment db operation next) (alone : AdminAlone db)
    (first : ∀ member ∈ db.member.rows, member.role = .roleAdmin → member.id = 1) :
    ∀ member ∈ next.member.rows, member.role = .roleAdmin → member.id = 1 := by
  intro member present admin
  rcases effect.member_rows alone.named with rows | ⟨user, kept, password, -, -, -, rows⟩ |
    ⟨old, -, -, rows⟩ | ⟨old, oldIn, newPassword, rows⟩ <;> rw [rows] at present
  · exact first member present admin
  · rcases List.mem_append.mp present with stored | added
    · exact first member stored admin
    · rw [List.mem_singleton.mp added] at admin
      cases admin
  · exact first member (Table.mem_deleteWhere.mp present).1 admin
  · rcases Table.mem_replace.mp present with ⟨stored, -⟩ | ⟨rfl, -⟩
    · exact first member stored admin
    · exact first old oldIn admin

/-- A new group is the administrator's, and no other operation takes a group from
him. -/
theorem DirectoryEffect.adminEverywhere {next : Database}
    (effect : DirectoryEffect environment db operation next) (intact : Intact db)
    (keeps : operation.KeepsAdmin) (everywhere : AdminEverywhere db) : AdminEverywhere next := by
  refine ⟨effect.admin_first intact.alone everywhere.first, fun group groupIn other => ?_⟩
  have same (segment : next.segment.rows = db.segment.rows) (kept : ∀ row ∈ db.memberGroup.rows,
      row.member = 1 → row ∈ next.memberGroup.rows) : ∃ memberGroup ∈ next.memberGroup.rows,
        memberGroup.member = 1 ∧ memberGroup.group = group.id := by
    obtain ⟨row, rowIn, mine, named⟩ := everywhere.joined group (segment ▸ groupIn) other
    exact ⟨row, kept row rowIn mine, mine, named⟩
  cases effect with
  | kept segment member memberGroup => exact same segment fun row rowIn _ => memberGroup ▸ rowIn
  | userRegistered keeps new segment member memberGroup =>
      exact same segment fun row rowIn _ => memberGroup ▸ rowIn
  | passwordChanged present segment member memberGroup =>
      exact same segment fun row rowIn _ => memberGroup ▸ rowIn
  | assigned assigneeIn groupIn new segment member memberGroup =>
      exact same segment fun row rowIn _ => memberGroup ▸ List.mem_append_left _ rowIn
  | started segment member memberGroup =>
      rcases segment with rows | missing
      · exact same rows fun row rowIn _ => memberGroup ▸ rowIn
      · obtain ⟨base, baseIn, named⟩ := intact.baseGroup
        exact (missing base baseIn named).elim
  | disassigned segment member memberGroup =>
      refine same segment fun row rowIn mine => memberGroup ▸ ?_
      refine Table.mem_deleteWhere.mpr ⟨rowIn, fun doomed => ?_⟩
      exact keeps _ (by rw [← doomed.1, mine])
  | userDeleted present named plain segment member memberGroup =>
      refine same segment fun row rowIn mine => memberGroup ▸ ?_
      refine Table.mem_deleteWhere.mpr ⟨rowIn, fun doomed => plain ?_⟩
      obtain ⟨admin, adminIn, role, -⟩ := intact.alone.present
      have sameId := (everywhere.first admin adminIn role).trans (mine.symm.trans doomed)
      rw [← Table.eq_of_key_eq adminIn present (sameId.trans named.symm)]
      exact role
  | groupDeleted spared segment member memberGroup =>
      rw [segment] at groupIn
      obtain ⟨stored, different⟩ := Table.mem_deleteWhere.mp groupIn
      obtain ⟨row, rowIn, mine, named⟩ := everywhere.joined group stored other
      refine ⟨row, memberGroup ▸ ?_, mine, named⟩
      exact Table.mem_deleteWhere.mpr ⟨rowIn, fun doomed => different (named.symm.trans doomed)⟩
  | @groupCreated groupName _ kept admin keeps new found segment member memberGroup =>
      rw [segment] at groupIn
      rcases List.mem_append.mp groupIn with old | added
      · obtain ⟨row, rowIn, mine, named⟩ := everywhere.joined group old other
        exact ⟨row, memberGroup ▸ List.mem_append_left _ rowIn, mine, named⟩
      · obtain ⟨adminIn, role⟩ := findByRole_eq_ok_some found
        refine ⟨_, memberGroup ▸ List.mem_append_right _ (List.mem_singleton_self _),
          everywhere.first admin adminIn role, ?_⟩
        rw [List.mem_singleton.mp added]
        rfl

/-- While no call removes the administrator, every group has the administrator as a member. -/
theorem adminEverywhere_run {operations : List Operation}
    (keeps : ∀ operation ∈ operations, operation.KeepsAdmin) :
    AdminEverywhere (run (step environment) (initial environment) operations).db := by
  have along : Along (step environment) (fun _ operation => operation.KeepsAdmin)
      (initial environment) operations := .of_forall fun _ => keeps
  have start : AdminEverywhere (initial environment).db := by
    obtain ⟨segment, member, -⟩ := initial_rows environment
    constructor
    · intro row rowIn _
      rw [member] at rowIn
      rw [List.mem_singleton.mp rowIn]
      rfl
    · intro group groupIn other
      rw [segment] at groupIn
      rw [List.mem_singleton.mp groupIn] at other
      exact (other rfl).elim
  have both := along.run_invariant
    (fun world => Application.Reachable environment world ∧ AdminEverywhere world.db)
    (fun world operation keeps before => ⟨before.1.run [operation],
      (step_directoryEffect environment world operation).adminEverywhere before.1.intact keeps
        before.2⟩) ⟨Transition.Reachable.refl _, start⟩
  exact both.2

/-- A member is offered all groups it can be assigned to if and only if each of
them has some member; this is so after every run in which the administrator is
not disassigned. -/
theorem offers_reachable (environment : Environment) :
    (∀ world, Application.Reachable environment world → ∀ member ∈ world.db.member.rows,
      ((∃ groups, Offers environment world member groups) ↔
        ∀ group ∈ world.db.segment.rows, group.id ≠ 1 → ¬ member.In world.db group.id →
          Joined world.db group.id)) ∧
      ∀ operations, (∀ operation ∈ operations, Operation.KeepsAdmin operation) →
        ∀ member ∈ (run (step environment) (initial environment) operations).db.member.rows,
          ∃ groups, Offers environment (run (step environment) (initial environment) operations)
            member groups := by
  constructor
  · intro world _ member present
    exact offers_iff present
  · intro operations keeps member present
    apply (offers_iff present).mpr
    intro group groupIn other _
    obtain ⟨row, rowIn, -, named⟩ := (adminEverywhere_run keeps).joined group groupIn other
    exact ⟨row, rowIn, named⟩

/-- The administrator leaves the laboratory, and it is offered to nobody. -/
theorem leftLab_unoffered :
    ¬ ∀ (environment : Environment) (world : World), Application.Reachable environment world →
      ∀ member ∈ world.db.member.rows, ∃ groups, Offers environment world member groups := by
  intro offers
  obtain ⟨groups, offered⟩ := offers .dev
    (run (step .dev) (initial .dev) [createLab, .disassignGroup 1 2])
    ⟨[createLab, .disassignGroup 1 2], rfl⟩ firstAdmin (by decide +kernel)
  have empty : listUnassignedGroups (run (step .dev) (initial .dev)
      [createLab, .disassignGroup 1 2]).db firstAdmin.id = .ok [] := by decide +kernel
  cases offered.listed.symm.trans empty
  exact List.not_mem_nil (offered.every (.createGroup (some "Lab") 2) (by decide +kernel)
    (by decide) (by decide +kernel))

end MegaVnc
