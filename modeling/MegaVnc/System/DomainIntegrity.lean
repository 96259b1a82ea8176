import MegaVnc.System.DirectoryEffect
import MegaVnc.System.RemotePcEffect

/-! # Domain integrity

The administration keeps one administrator, the base group with the base PC,
references that lead somewhere, and rows that are not given twice. The clauses
lean on one another: the administrator is found by its role because only one
member ever has it, and a new group can be told from all that memberships name
because these exist. One clause can break: a registration looks for the name as
it was sent, and the column stores it cut.
-/

namespace MegaVnc

open Relational Fallible Application
open RemotePcApiService (nextRepeaterId)

/-- Only the member named "admin" is an administrator. -/
structure AdminAlone (db : Database) : Prop where
  present : ∃ admin ∈ db.member.rows, admin.role = .roleAdmin ∧ admin.username = some "admin"
  only : ∀ member ∈ db.member.rows, member.role = .roleAdmin → member.username = some "admin"

/-- Memberships and PCs refer to rows that exist. -/
structure Referring (db : Database) : Prop where
  members : ∀ memberGroup ∈ db.memberGroup.rows, ∃ member ∈ db.member.rows,
    member.id = memberGroup.member
  groups : ∀ memberGroup ∈ db.memberGroup.rows, ∃ group ∈ db.segment.rows,
    group.id = memberGroup.group
  pcGroups : ∀ remotePc ∈ db.remotePc.rows, ∃ group ∈ db.segment.rows,
    group.id = remotePc.group

/-- No membership is given twice. -/
def MembershipsApart (db : Database) : Prop :=
  (db.memberGroup.rows.map fun memberGroup => (memberGroup.member, memberGroup.group)).Nodup

/-- No two PCs of a group have the same name. -/
def PcNamesApart (remotePcs : List RemotePc) : Prop :=
  (remotePcs.map fun remotePc => (remotePc.name, remotePc.group)).Nodup

/-- No other PC of its group has its name. -/
def AloneInGroup (db : Database) (remotePc : RemotePc) : Prop :=
  ∀ other ∈ db.remotePc.rows, other.name = remotePc.name → other.group = remotePc.group →
    other.id = remotePc.id

/-- A PC of the group has the name. -/
def Named (db : Database) (name : String) (group : Long) : Prop :=
  ∃ remotePc ∈ db.remotePc.rows, remotePc.name = name ∧ remotePc.group = group

/-- The registration passes its checks, and the column cuts its name to that of a PC of
the group. -/
def RegisterRemotePcDto.CutsOnto (registerRemotePcDto : RegisterRemotePcDto)
    (notSelected : String) (db : Database) : Prop :=
  ∃ sentName accessPassword group name,
    registerRemotePcDto.Accepted notSelected db sentName accessPassword group ∧
      (varchar accessPassword).isSome ∧ varchar sentName = some name ∧ Named db name group.id

/-- A name that fits its column is not cut. -/
theorem RegisterRemotePcDto.not_cutsOnto_of_short {registerRemotePcDto : RegisterRemotePcDto}
    {notSelected : String} {db : Database}
    (short : ∀ name, registerRemotePcDto.remotePcName = some name → name.length ≤ 255) :
    ¬ registerRemotePcDto.CutsOnto notSelected db := by
  rintro ⟨sentName, _, group, name, accepted, -, keeps, remotePc, present, named⟩
  obtain rfl := varchar_of_short keeps (short sentName accepted.named)
  exact accepted.unnamed remotePc present named

/-- The operation is such a registration. -/
def Operation.CutsOnto (operation : Operation) (db : Database) : Prop :=
  ∃ registerRemotePcDto notSelected,
    operation.registration = some (registerRemotePcDto, notSelected) ∧
      registerRemotePcDto.CutsOnto notSelected db

/-- A name, and the missing name, is that of one group. -/
def GroupNamesApart (db : Database) : Prop :=
  (db.segment.rows.map Group.groupName).Nodup

/-- The clauses that no operation breaks. -/
structure LastingIntegrity (db : Database) : Prop where
  admin : ∃! admin, admin ∈ db.member.rows ∧ admin.role = .roleAdmin
  adminFound : ∃ admin, db.findByRole .roleAdmin = .ok (some admin)
  baseGroup : ∃ group ∈ db.segment.rows, group.id = 1
  basePc : ∃ remotePc ∈ db.remotePc.rows, remotePc.repeaterId = 100 ∧ remotePc.group = 1
  repeaterIds : ∀ remotePc ∈ db.remotePc.rows, 100 ≤ remotePc.repeaterId
  referring : Referring db
  membershipsApart : MembershipsApart db

/-- All clauses, with the one that can break. -/
structure DomainIntegrity (db : Database) : Prop extends LastingIntegrity db where
  namesApart : PcNamesApart db.remotePc.rows

variable {environment : Environment} {world : World} {operation : Operation}
  {db next : Database}

/-! ### The administrator and the base group -/

theorem clash_member {first second : Member} {username : String}
    (firstName : first.username = some username) (secondName : second.username = some username) :
    Clash first second :=
  ⟨firstName.trans_ne (Option.some_ne_none username), firstName.trans secondName.symm⟩

/-- There is one administrator. -/
theorem AdminAlone.unique (alone : AdminAlone db) {first second : Member}
    (firstIn : first ∈ db.member.rows) (secondIn : second ∈ db.member.rows)
    (firstAdmin : first.role = .roleAdmin) (secondAdmin : second.role = .roleAdmin) :
    first = second :=
  Table.eq_of_clash firstIn secondIn
    (clash_member (alone.only first firstIn firstAdmin) (alone.only second secondIn secondAdmin))

theorem AdminAlone.named (alone : AdminAlone db) :
    ∃ member ∈ db.member.rows, member.username = some "admin" := by
  obtain ⟨admin, present, -, name⟩ := alone.present
  exact ⟨admin, present, name⟩

/-- The search for the role finds it. -/
theorem AdminAlone.found (alone : AdminAlone db) :
    ∃ admin, db.findByRole .roleAdmin = .ok (some admin) := by
  obtain ⟨admin, present, role, -⟩ := alone.present
  have single : (db.member.rows.filter fun member => member.role = .roleAdmin) = [admin] := by
    have nodup : (db.member.rows.filter fun member => member.role = .roleAdmin).Nodup :=
      (db.member.keys_apart.imp fun different same => different (congrArg key same)).filter _
    apply List.perm_singleton.mp
    refine (List.perm_ext_iff_of_nodup nodup (List.nodup_singleton _)).mpr fun other => ?_
    simp only [List.mem_filter, decide_eq_true_eq, List.mem_singleton]
    constructor
    · exact fun ⟨otherIn, otherAdmin⟩ => alone.unique otherIn present otherAdmin role
    · intro same
      rw [same]
      exact ⟨present, role⟩
  exact ⟨admin, by simp only [Database.findByRole, single]⟩

/-- A member that is found by a role has it. -/
theorem findByRole_eq_ok_some {role : Role} {member : Member}
    (found : db.findByRole role = .ok (some member)) :
    member ∈ db.member.rows ∧ member.role = role := by
  unfold Database.findByRole at found
  split at found
  · cases found
  · next single =>
      cases found
      obtain ⟨present, named⟩ := List.mem_filter.mp (single ▸ List.mem_singleton_self member)
      exact ⟨present, of_decide_eq_true named⟩
  · cases found

/-- No operation gives the role away or takes it from the administrator. -/
theorem DirectoryEffect.adminAlone (effect : DirectoryEffect environment db operation next)
    (alone : AdminAlone db) : AdminAlone next := by
  obtain ⟨⟨admin, present, role, name⟩, only⟩ := alone
  rcases effect.member_rows ⟨admin, present, name⟩ with rows |
    ⟨user, kept, password, -, -, -, rows⟩ | ⟨old, oldIn, plain, rows⟩ |
    ⟨old, oldIn, newPassword, rows⟩
  · exact ⟨⟨admin, rows ▸ present, role, name⟩, rows ▸ only⟩
  · refine ⟨⟨admin, ?_, role, name⟩, fun other otherIn otherAdmin => ?_⟩
    · rw [rows]
      exact List.mem_append_left _ present
    · rw [rows] at otherIn
      rcases List.mem_append.mp otherIn with stored | added
      · exact only other stored otherAdmin
      · rw [List.mem_singleton.mp added] at otherAdmin
        cases otherAdmin
  · refine ⟨⟨admin, ?_, role, name⟩, fun other otherIn otherAdmin => ?_⟩
    · rw [rows]
      refine Table.mem_deleteWhere.mpr ⟨present, fun sameId => plain ?_⟩
      have isOld : admin = old := Table.eq_of_key_eq present oldIn sameId
      exact isOld ▸ role
    · rw [rows] at otherIn
      exact only other (Table.mem_deleteWhere.mp otherIn).1 otherAdmin
  · refine ⟨?_, fun other otherIn otherAdmin => ?_⟩
    · by_cases isOld : admin.id = old.id
      · have same : admin = old := Table.eq_of_key_eq present oldIn isOld
        refine ⟨old.changePassword environment.encodePassword newPassword, ?_, same ▸ role,
          same ▸ name⟩
        rw [rows]
        exact Table.mem_replace.mpr (Or.inr ⟨rfl, old, oldIn, rfl⟩)
      · refine ⟨admin, ?_, role, name⟩
        rw [rows]
        exact Table.mem_replace.mpr (Or.inl ⟨present, isOld⟩)
    · rw [rows] at otherIn
      rcases Table.mem_replace.mp otherIn with ⟨kept, -⟩ | ⟨rfl, -⟩
      · exact only other kept otherAdmin
      · exact only old oldIn otherAdmin

/-- A group is deleted together with its memberships; it is not the base group. -/
theorem DirectoryEffect.group_mem (effect : DirectoryEffect environment db operation next)
    (base : ∃ group ∈ db.segment.rows, group.id = 1) {group : Group}
    (present : group ∈ db.segment.rows) :
    group ∈ next.segment.rows ∨
      group.id ≠ 1 ∧ operation = .deleteGroup group.id ∧
        ∀ memberGroup ∈ next.memberGroup.rows, memberGroup.group ≠ group.id := by
  cases effect with
  | kept segment member memberGroup => exact Or.inl (segment ▸ present)
  | groupCreated keeps new found segment member memberGroup =>
      rw [segment]
      exact Or.inl (List.mem_append_left _ present)
  | @groupDeleted groupId _ other segment member memberGroup =>
      by_cases named : group.id = groupId
      · refine Or.inr ⟨named ▸ other, congrArg Operation.deleteGroup named.symm,
          fun row rowIn => ?_⟩
        rw [memberGroup] at rowIn
        exact named ▸ (Table.mem_deleteWhere.mp rowIn).2
      · rw [segment]
        exact Or.inl (Table.mem_deleteWhere.mpr ⟨present, named⟩)
  | userRegistered keeps new segment member memberGroup => exact Or.inl (segment ▸ present)
  | userDeleted oldIn named plain segment member memberGroup => exact Or.inl (segment ▸ present)
  | assigned assigneeIn groupIn new segment member memberGroup =>
      exact Or.inl (segment ▸ present)
  | disassigned segment member memberGroup => exact Or.inl (segment ▸ present)
  | passwordChanged oldIn segment member memberGroup => exact Or.inl (segment ▸ present)
  | started segment member memberGroup =>
      rcases segment with rows | missing
      · exact Or.inl (rows ▸ present)
      · obtain ⟨group, groupIn, named⟩ := base
        exact (missing group groupIn named).elim

/-- No operation deletes the base group. -/
theorem DirectoryEffect.baseGroup (effect : DirectoryEffect environment db operation next)
    (base : ∃ group ∈ db.segment.rows, group.id = 1) :
    ∃ group ∈ next.segment.rows, group.id = 1 := by
  obtain ⟨group, present, named⟩ := base
  rcases effect.group_mem ⟨group, present, named⟩ present with stays | ⟨other, -⟩
  · exact ⟨group, stays, named⟩
  · exact (other named).elim

/-- No operation gives a group the name of another. -/
theorem DirectoryEffect.groupNamesApart
    (effect : DirectoryEffect environment db operation next)
    (base : ∃ group ∈ db.segment.rows, group.id = 1) (apart : GroupNamesApart db) :
    GroupNamesApart next := by
  unfold GroupNamesApart at *
  rcases effect.segment_rows base with rows | ⟨groupName, new, rows⟩ | ⟨groupId, rows⟩
  · rwa [rows]
  · rw [rows]
    refine (Table.nodup_append_row Group.groupName).mpr ⟨apart, fun group present named => ?_⟩
    exact List.find?_eq_none.mp new group present (decide_eq_true named)
  · rw [rows]
    exact (List.filter_sublist.map _).nodup apart

theorem GroupNamesApart.findByGroupName (apart : GroupNamesApart db) {group : Group}
    (present : group ∈ db.segment.rows) : db.findByGroupName group.groupName = some group :=
  Table.find?_of_apart Group.groupName apart present

/-! ### Memberships -/

/-- A member keeps its id, or is deleted together with its memberships. -/
theorem DirectoryEffect.member_mem (effect : DirectoryEffect environment db operation next)
    (alone : AdminAlone db) {member : Member} (present : member ∈ db.member.rows) :
    (∃ same ∈ next.member.rows, same.id = member.id) ∨
      ∀ memberGroup ∈ next.memberGroup.rows, memberGroup.member ≠ member.id := by
  have stays (rows : next.member.rows = db.member.rows) :
      (∃ same ∈ next.member.rows, same.id = member.id) ∨
        ∀ memberGroup ∈ next.memberGroup.rows, memberGroup.member ≠ member.id :=
    Or.inl ⟨member, rows ▸ present, rfl⟩
  cases effect with
  | kept segment rows memberGroup => exact stays rows
  | groupCreated keeps new found segment rows memberGroup => exact stays rows
  | groupDeleted other segment rows memberGroup => exact stays rows
  | assigned assigneeIn groupIn new segment rows memberGroup => exact stays rows
  | disassigned segment rows memberGroup => exact stays rows
  | started segment rows memberGroup =>
      rcases rows with rows | missing
      · exact stays rows
      · obtain ⟨admin, adminIn, -, name⟩ := alone.present
        exact (missing admin adminIn name).elim
  | userRegistered keeps new segment rows memberGroup =>
      rw [rows]
      exact Or.inl ⟨member, List.mem_append_left _ present, rfl⟩
  | @userDeleted memberId _ old oldIn named plain segment rows memberGroup =>
      by_cases doomed : member.id = memberId
      · refine Or.inr fun row rowIn => ?_
        rw [memberGroup] at rowIn
        exact doomed ▸ (Table.mem_deleteWhere.mp rowIn).2
      · rw [rows]
        exact Or.inl ⟨member, Table.mem_deleteWhere.mpr ⟨present, doomed⟩, rfl⟩
  | @passwordChanged _ _ newPassword _ old oldIn segment rows memberGroup =>
      rw [rows]
      by_cases isOld : member.id = old.id
      · exact Or.inl ⟨old.changePassword environment.encodePassword newPassword,
          Table.mem_replace.mpr (Or.inr ⟨rfl, old, oldIn, rfl⟩), isOld.symm⟩
      · exact Or.inl ⟨member, Table.mem_replace.mpr (Or.inl ⟨present, isOld⟩), rfl⟩

/-- The memberships afterwards are old ones, and at most one more, of a member
and a group that exist and were not joined before. -/
theorem DirectoryEffect.memberGroup_rows
    (effect : DirectoryEffect environment db operation next) :
    next.memberGroup.rows.Sublist db.memberGroup.rows ∨
      ∃ added, next.memberGroup.rows = db.memberGroup.rows ++ [added] ∧
        next.member.rows = db.member.rows ∧ (∃ member ∈ db.member.rows, member.id = added.member) ∧
        (∃ group ∈ next.segment.rows, group.id = added.group) ∧
        ((∀ group ∈ db.segment.rows, group.id ≠ added.group) ∨
          ∀ memberGroup ∈ db.memberGroup.rows,
            ¬ (memberGroup.member = added.member ∧ memberGroup.group = added.group)) := by
  cases effect with
  | kept segment member memberGroup => exact Or.inl (memberGroup ▸ List.Sublist.refl _)
  | userRegistered keeps new segment member memberGroup =>
      exact Or.inl (memberGroup ▸ List.Sublist.refl _)
  | passwordChanged oldIn segment member memberGroup =>
      exact Or.inl (memberGroup ▸ List.Sublist.refl _)
  | started segment member memberGroup => exact Or.inl (memberGroup ▸ List.Sublist.refl _)
  | groupDeleted other segment member memberGroup =>
      exact Or.inl (memberGroup ▸ List.filter_sublist)
  | userDeleted oldIn named plain segment member memberGroup =>
      exact Or.inl (memberGroup ▸ List.filter_sublist)
  | disassigned segment member memberGroup => exact Or.inl (memberGroup ▸ List.filter_sublist)
  | @groupCreated groupName kept _ admin keeps new found segment member memberGroup =>
      refine Or.inr ⟨_, memberGroup, member, ⟨admin, (findByRole_eq_ok_some found).1, rfl⟩,
        ⟨Group.createGroup kept db.segment.nextKey, ?_, rfl⟩, Or.inl fun group groupIn => ?_⟩
      · rw [segment]
        exact List.mem_append_right _ (List.mem_singleton_self _)
      · exact Int.ne_of_lt (db.segment.keys_below group groupIn)
  | @assigned _ _ assignee group assigneeIn groupIn new segment member memberGroup =>
      refine Or.inr ⟨_, memberGroup, member, ⟨assignee, assigneeIn, rfl⟩, ⟨group, ?_, rfl⟩,
        Or.inr fun row rowIn joined => ?_⟩
      · rw [segment]
        exact groupIn
      · have listed : row ∈ db.findByMemberAndGroup assignee group.id :=
          List.mem_filter.mpr ⟨rowIn, decide_eq_true joined⟩
        rw [new] at listed
        cases listed

/-- No operation leaves a membership without its member. -/
theorem DirectoryEffect.referring_members
    (effect : DirectoryEffect environment db operation next) (alone : AdminAlone db)
    (referring : ∀ memberGroup ∈ db.memberGroup.rows, ∃ member ∈ db.member.rows,
      member.id = memberGroup.member) :
    ∀ memberGroup ∈ next.memberGroup.rows, ∃ member ∈ next.member.rows,
      member.id = memberGroup.member := by
  intro memberGroup present
  have kept (old : memberGroup ∈ db.memberGroup.rows) : ∃ member ∈ next.member.rows,
      member.id = memberGroup.member := by
    obtain ⟨member, memberIn, named⟩ := referring memberGroup old
    rcases effect.member_mem alone memberIn with ⟨same, sameIn, sameId⟩ | gone
    · exact ⟨same, sameIn, sameId.trans named⟩
    · exact (gone memberGroup present named.symm).elim
  rcases effect.memberGroup_rows with sublist | ⟨added, rows, sameMembers, referred, -⟩
  · exact kept (sublist.subset present)
  · rw [rows] at present
    rcases List.mem_append.mp present with old | new
    · exact kept old
    · rw [List.mem_singleton.mp new, sameMembers]
      exact referred

/-- No operation leaves a membership without its group. -/
theorem DirectoryEffect.referring_groups
    (effect : DirectoryEffect environment db operation next)
    (base : ∃ group ∈ db.segment.rows, group.id = 1)
    (referring : ∀ memberGroup ∈ db.memberGroup.rows, ∃ group ∈ db.segment.rows,
      group.id = memberGroup.group) :
    ∀ memberGroup ∈ next.memberGroup.rows, ∃ group ∈ next.segment.rows,
      group.id = memberGroup.group := by
  intro memberGroup present
  have kept (old : memberGroup ∈ db.memberGroup.rows) : ∃ group ∈ next.segment.rows,
      group.id = memberGroup.group := by
    obtain ⟨group, groupIn, named⟩ := referring memberGroup old
    rcases effect.group_mem base groupIn with stays | ⟨-, -, gone⟩
    · exact ⟨group, stays, named⟩
    · exact (gone memberGroup present named.symm).elim
  rcases effect.memberGroup_rows with sublist | ⟨added, rows, -, -, referred, -⟩
  · exact kept (sublist.subset present)
  · rw [rows] at present
    rcases List.mem_append.mp present with old | new
    · exact kept old
    · rw [List.mem_singleton.mp new]
      exact referred

/-- No operation gives a membership twice. -/
theorem DirectoryEffect.membershipsApart
    (effect : DirectoryEffect environment db operation next)
    (referring : ∀ memberGroup ∈ db.memberGroup.rows, ∃ group ∈ db.segment.rows,
      group.id = memberGroup.group)
    (apart : MembershipsApart db) : MembershipsApart next := by
  rcases effect.memberGroup_rows with sublist | ⟨added, rows, -, -, -, new⟩
  · exact (sublist.map _).nodup apart
  · unfold MembershipsApart
    rw [rows]
    refine (Table.nodup_append_row _).mpr ⟨apart, fun memberGroup present joined => ?_⟩
    rw [Prod.mk.injEq] at joined
    rcases new with fresh | unjoined
    · obtain ⟨group, groupIn, named⟩ := referring memberGroup present
      exact fresh group groupIn (named.trans joined.2)
    · exact unjoined memberGroup present joined

/-! ### PCs -/

/-- The names of the PCs stay apart, unless a registration is cut onto one of them. -/
theorem RemotePcEffect.namesApart {after : Table RemotePc}
    (effect : RemotePcEffect db operation after) (uncut : ¬ operation.CutsOnto db)
    (base : ∃ remotePc ∈ db.remotePc.rows, IsBasePc remotePc)
    (apart : PcNamesApart db.remotePc.rows) : PcNamesApart after.rows := by
  cases effect with
  | kept rows nextKey => rwa [rows]
  | @changed old new present change rows nextKey =>
      obtain ⟨sameId, -, sameName, -, sameGroup⟩ := change.sameIdentity
      rwa [PcNamesApart, rows, Table.map_replace _ new present sameId.symm
        (Prod.ext sameName.symm sameGroup.symm)]
  | registered registers accepted named secured rows nextKey =>
      unfold PcNamesApart
      rw [rows]
      refine (Table.nodup_append_row _).mpr ⟨apart, fun remotePc present duplicate => ?_⟩
      rw [Prod.mk.injEq] at duplicate
      exact uncut ⟨_, _, registers, _, _, _, _, accepted, Option.isSome_of_eq_some secured, named,
        remotePc, present, duplicate⟩
  | loaded starts missing rows nextKey =>
      obtain ⟨remotePc, present, based⟩ := base
      exact (missing remotePc present based.2.1).elim
  | deleted doomed decided deletes rows nextKey =>
      rw [rows]
      exact (List.filter_sublist.map _).nodup apart

/-- No operation gives a PC a repeaterId below 100. -/
theorem RemotePcEffect.repeaterIds {after : Table RemotePc}
    (effect : RemotePcEffect db operation after)
    (base : ∃ remotePc ∈ db.remotePc.rows, IsBasePc remotePc)
    (lowest : ∀ remotePc ∈ db.remotePc.rows, 100 ≤ remotePc.repeaterId) :
    ∀ remotePc ∈ after.rows, 100 ≤ remotePc.repeaterId := by
  intro remotePc member
  cases effect with
  | kept rows nextKey => exact lowest remotePc (rows ▸ member)
  | @changed old new present change rows nextKey =>
      rw [rows] at member
      rcases Table.mem_replace.mp member with ⟨kept, -⟩ | ⟨rfl, -⟩
      · exact lowest remotePc kept
      · exact change.sameIdentity.2.1 ▸ lowest old present
  | registered registers accepted named secured rows nextKey =>
      rw [rows] at member
      rcases List.mem_append.mp member with kept | added
      · exact lowest remotePc kept
      · obtain ⟨basePc, present, -, isLowest, -⟩ := base
        have above := RemotePcApiService.lt_nextRepeaterId present
        rw [isLowest] at above
        rw [List.mem_singleton.mp added]
        exact Int.le_of_lt above
  | loaded starts missing rows nextKey =>
      obtain ⟨basePc, present, based⟩ := base
      exact (missing basePc present based.2.1).elim
  | deleted doomed decided deletes rows nextKey =>
      rw [rows] at member
      exact lowest remotePc (Table.mem_deleteWhere.mp member).1

/-- A deleted group takes its PCs with it. -/
theorem deleteGroup_cases (environment : Environment) (world : World) (groupId : Long) :
    step environment world (.deleteGroup groupId) = world ∨
      (∀ remotePc ∈ (step environment world (.deleteGroup groupId)).db.remotePc.rows,
        remotePc.group ≠ groupId) ∧
      ∀ group ∈ (step environment world (.deleteGroup groupId)).db.segment.rows,
        group.id ≠ groupId := by
  change (transact world _).2 = world ∨ (∀ remotePc ∈ (transact world _).2.db.remotePc.rows, _) ∧
    ∀ group ∈ (transact world _).2.db.segment.rows, _
  rcases transact_cases world _ with ⟨exception, -, failed⟩ | ⟨reply, db, ok, committed⟩
  · rw [failed]
    exact Or.inl rfl
  · rw [committed]
    obtain ⟨deleted, rfl⟩ := done_eq_ok.mp ok
    obtain ⟨-, rfl⟩ := AdminGroupService.deleteGroup_eq_ok deleted
    exact Or.inr ⟨fun remotePc member => (Table.mem_deleteWhere.mp member).2,
      fun group member => (Table.mem_deleteWhere.mp member).2⟩

/-- No operation leaves a PC without its group. -/
theorem pcGroups_step (base : ∃ remotePc ∈ world.db.remotePc.rows, IsBasePc remotePc)
    (baseGroup : ∃ group ∈ world.db.segment.rows, group.id = 1)
    (referring : ∀ remotePc ∈ world.db.remotePc.rows, ∃ group ∈ world.db.segment.rows,
      group.id = remotePc.group) :
    ∀ remotePc ∈ (step environment world operation).db.remotePc.rows,
      ∃ group ∈ (step environment world operation).db.segment.rows, group.id = remotePc.group := by
  intro remotePc member
  have referred : ∃ group ∈ world.db.segment.rows, group.id = remotePc.group := by
    cases step_effect environment world operation with
    | kept rows nextKey => exact referring remotePc (rows ▸ member)
    | @changed old new present change rows nextKey =>
        rw [rows] at member
        rcases Table.mem_replace.mp member with ⟨kept, -⟩ | ⟨rfl, -⟩
        · exact referring remotePc kept
        · exact change.sameIdentity.2.2.2.2 ▸ referring old present
    | registered registers accepted named secured rows nextKey =>
        rw [rows] at member
        rcases List.mem_append.mp member with kept | added
        · exact referring remotePc kept
        · rw [List.mem_singleton.mp added]
          exact ⟨_, accepted.group_mem, rfl⟩
    | loaded starts missing rows nextKey =>
        obtain ⟨basePc, present, based⟩ := base
        exact (missing basePc present based.2.1).elim
    | deleted doomed decided deletes rows nextKey =>
        rw [rows] at member
        exact referring remotePc (Table.mem_deleteWhere.mp member).1
  obtain ⟨group, present, named⟩ := referred
  rcases (step_directoryEffect environment world operation).group_mem baseGroup present with
    stays | ⟨-, rfl, -⟩
  · exact ⟨group, stays, named⟩
  · rcases deleteGroup_cases environment world group.id with same | ⟨spared, -⟩
    · rw [same]
      exact ⟨group, present, named⟩
    · exact (spared remotePc member named.symm).elim

/-! ### Reachable states -/

/-- What every operation keeps, besides the base PC. -/
structure Intact (db : Database) : Prop where
  alone : AdminAlone db
  baseGroup : ∃ group ∈ db.segment.rows, group.id = 1
  groupNamesApart : GroupNamesApart db
  repeaterIds : ∀ remotePc ∈ db.remotePc.rows, 100 ≤ remotePc.repeaterId
  referring : Referring db
  membershipsApart : MembershipsApart db

/-- The clauses that last hold after the first start. -/
theorem intact_initial (environment : Environment) : Intact (initial environment).db := by
  obtain ⟨segment, member, memberGroup, remotePc⟩ := initial_rows environment
  have admin := List.mem_singleton_self (Member.createMember environment.encodePassword
    (some "admin") "!mb220719" .roleAdmin 1)
  have group := List.mem_singleton_self ({ id := 1, groupName := some "BaseGroup" } : Group)
  rw [← member] at admin
  rw [← segment] at group
  constructor
  · refine ⟨⟨_, admin, rfl, rfl⟩, fun other otherIn _ => ?_⟩
    rw [member] at otherIn
    rw [List.mem_singleton.mp otherIn]
    rfl
  · exact ⟨_, group, rfl⟩
  · rw [GroupNamesApart, segment]
    exact List.nodup_singleton _
  · intro row rowIn
    rw [remotePc] at rowIn
    rw [List.mem_singleton.mp rowIn]
    exact Int.le_refl _
  · constructor
    · intro row rowIn
      rw [memberGroup] at rowIn
      cases rowIn
    · intro row rowIn
      rw [memberGroup] at rowIn
      cases rowIn
    · intro row rowIn
      rw [remotePc] at rowIn
      rw [List.mem_singleton.mp rowIn]
      exact ⟨_, group, rfl⟩
  · rw [MembershipsApart, memberGroup]
    exact List.nodup_nil

/-- Each operation keeps them. -/
theorem Intact.step (intact : Intact world.db)
    (base : ∃ remotePc ∈ world.db.remotePc.rows, IsBasePc remotePc) :
    Intact (step environment world operation).db := by
  have directory := step_directoryEffect environment world operation
  have pcs := step_effect environment world operation
  obtain ⟨alone, baseGroup, groupNamesApart, repeaterIds, ⟨members, groups, pcGroups⟩,
    membershipsApart⟩ := intact
  exact
    { alone := directory.adminAlone alone
      baseGroup := directory.baseGroup baseGroup
      groupNamesApart := directory.groupNamesApart baseGroup groupNamesApart
      repeaterIds := pcs.repeaterIds base repeaterIds
      referring :=
        { members := directory.referring_members alone members
          groups := directory.referring_groups baseGroup groups
          pcGroups := pcGroups_step base baseGroup pcGroups }
      membershipsApart := directory.membershipsApart groups membershipsApart }

/-- The clauses hold in every reachable state. -/
theorem Application.Reachable.intact (reached : Application.Reachable environment world) :
    Intact world.db := by
  have kept (world : World) (operation : Operation)
      (before : Intact world.db ∧ ∃ remotePc ∈ world.db.remotePc.rows, IsBasePc remotePc) :
      Intact (Application.step environment world operation).db ∧
        ∃ remotePc ∈ (Application.step environment world operation).db.remotePc.rows,
          IsBasePc remotePc :=
    ⟨before.1.step before.2, exists_basePc_step before.2⟩
  exact (Transition.Reachable.invariant
    (fun world => Intact world.db ∧ ∃ remotePc ∈ world.db.remotePc.rows, IsBasePc remotePc)
    reached kept ⟨intact_initial environment, exists_basePc_initial environment⟩).1

/-- All clauses but the names of the PCs hold after any operations. -/
theorem Application.Reachable.lastingIntegrity
    (reached : Application.Reachable environment world) : LastingIntegrity world.db := by
  have intact := reached.intact
  obtain ⟨basePc, present, -, named, inBase⟩ := reached.exists_basePc
  obtain ⟨admin, adminIn, role, -⟩ := intact.alone.present
  exact
    { admin := ⟨admin, ⟨adminIn, role⟩, fun other ⟨otherIn, otherAdmin⟩ =>
        intact.alone.unique otherIn adminIn otherAdmin role⟩
      adminFound := intact.alone.found
      baseGroup := intact.baseGroup
      basePc := ⟨basePc, present, named, inBase⟩
      repeaterIds := intact.repeaterIds
      referring := intact.referring
      membershipsApart := intact.membershipsApart }

/-! ### Names that a column cuts -/

/-- A registration that is cut onto the name of a PC of its group is stored. -/
theorem namesApart_of_cutsOnto (environment : Environment) (cuts : operation.CutsOnto world.db) :
    ¬ PcNamesApart (step environment world operation).db.remotePc.rows := by
  obtain ⟨registerRemotePcDto, notSelected, registers, sentName, sentPassword, group, name,
    accepted, secured, named, taken⟩ := cuts
  obtain ⟨accessPassword, passwordFits⟩ := Option.isSome_iff_exists.mp secured
  have free : ∀ row ∈ world.db.remotePc.rows,
      row.repeaterId ≠ nextRepeaterId world.db.findTopByOrderByRepeaterIdDesc :=
    fun row present => Int.ne_of_lt (RemotePcApiService.lt_nextRepeaterId present)
  obtain ⟨next, inserted⟩ :
      ∃ next, world.db.insertRemotePc _ sentName sentPassword group.id = .ok next :=
    Database.exists_insertRemotePc free named passwordFits
  have registered (exception : ErrorCode → String → Exception) :
      RemotePcApiService.registerRemotePcWith exception notSelected world.db
        registerRemotePcDto = .ok next :=
    RemotePcApiService.registerRemotePcWith_eq_ok_iff.mpr
      ⟨sentName, sentPassword, group, accepted, inserted⟩
  have stored : (step environment world operation).db = next := by
    have committed {service : Except Exception Database} (ok : service = .ok next) :
        (transact world do
          let db ← service
          pure (.done, db)).2.db = next := by
      rw [transact_eq_ok.mpr ⟨next, done_eq_ok.mpr ⟨ok, rfl⟩, rfl⟩]
      rfl
    cases operation with
    | registerRemotePcApi sent =>
        cases registers
        exact committed (registered .api)
    | registerRemotePcWeb sent =>
        cases registers
        exact committed (registered .remotePc)
    | _ => cases registers
  obtain ⟨keptName, _, keeps, -, -, after, rfl, rows, -⟩ := Database.insertRemotePc_eq_ok inserted
  cases named.symm.trans keeps
  obtain ⟨remotePc, present, sameName, sameGroup⟩ := taken
  rw [stored]
  unfold PcNamesApart
  change ¬ (after.rows.map _).Nodup
  rw [rows]
  intro apart
  exact ((Table.nodup_append_row _).mp apart).2 remotePc present (Prod.ext sameName sameGroup)

/-- Whether the names stay apart is decided by the registrations. -/
theorem namesApart_step_iff (environment : Environment) (operation : Operation)
    (base : ∃ remotePc ∈ world.db.remotePc.rows, IsBasePc remotePc)
    (apart : PcNamesApart world.db.remotePc.rows) :
    PcNamesApart (step environment world operation).db.remotePc.rows ↔
      ¬ operation.CutsOnto world.db :=
  ⟨fun still cuts => namesApart_of_cutsOnto environment cuts still,
    fun uncut => (step_effect environment world operation).namesApart uncut base apart⟩

theorem aloneInGroup_congr {first second : RemotePc} (same : first.SameIdentity second) :
    AloneInGroup db first ↔ AloneInGroup db second := by
  obtain ⟨id, -, name, -, group⟩ := same
  rw [AloneInGroup, AloneInGroup, id, name, group]

/-- Where the names are apart, every PC is alone in its group. -/
theorem PcNamesApart.aloneInGroup {remotePc : RemotePc} (apart : PcNamesApart db.remotePc.rows)
    (member : remotePc ∈ db.remotePc.rows) : AloneInGroup db remotePc :=
  fun _ present sameName sameGroup =>
    congrArg RemotePc.id (List.inj_on_of_nodup_map apart present member
      (Prod.ext sameName sameGroup))

/-- The names stay apart in a run without such registrations. -/
theorem PcNamesApart.run {operations : List Operation}
    (apart : PcNamesApart world.db.remotePc.rows)
    (base : ∃ remotePc ∈ world.db.remotePc.rows, IsBasePc remotePc)
    (uncut : Transition.Along (step environment) (fun world operation =>
      ¬ operation.CutsOnto world.db) world operations) :
    PcNamesApart (Transition.run (step environment) world operations).db.remotePc.rows :=
  (uncut.run_invariant (fun world => PcNamesApart world.db.remotePc.rows ∧
      ∃ remotePc ∈ world.db.remotePc.rows, IsBasePc remotePc)
    (fun _ operation uncut ⟨apart, base⟩ =>
      ⟨(namesApart_step_iff environment operation base apart).mpr uncut, exists_basePc_step base⟩)
    ⟨apart, base⟩).1

/-- From the first start on, domain integrity holds in every state passed if and only if
no registration is cut onto the name of a PC of its group. The clauses besides the names
of the PCs hold whatever is registered. -/
theorem domainIntegrity_iff (environment : Environment) (operations : List Operation) :
    (Transition.Along (step environment) (fun world operation =>
          DomainIntegrity (step environment world operation).db) (initial environment) operations ↔
        Transition.Along (step environment) (fun world operation => ¬ operation.CutsOnto world.db)
          (initial environment) operations) ∧
      LastingIntegrity
        (Transition.run (step environment) (initial environment) operations).db := by
  have integrity (world : World) (reached : Application.Reachable environment world) :
      DomainIntegrity world.db ↔ PcNamesApart world.db.remotePc.rows :=
    ⟨DomainIntegrity.namesApart, fun apart => ⟨reached.lastingIntegrity, apart⟩⟩
  have start : PcNamesApart (initial environment).db.remotePc.rows := by
    rw [PcNamesApart, (initial_rows environment).2.2.2]
    exact List.nodup_singleton _
  refine ⟨Transition.along_property_iff (Application.Reachable environment)
    (fun world => DomainIntegrity world.db) (fun _ operation reached => reached.run [operation])
    (fun world operation reached holds => ?_) (.refl _) ?_, Reachable.lastingIntegrity ⟨_, rfl⟩⟩
  · refine (integrity _ (reached.run [operation])).trans ?_
    exact namesApart_step_iff environment operation reached.exists_basePc holds.namesApart
  · exact (integrity _ (.refl _)).mpr start

/-- A start, or an operation of the administration or on the PCs. -/
def Operation.isDomainChange : Operation → Bool
  | .dataLoader _ | .createGroup _ | .deleteGroup _ | .createUser _ | .deleteUser _
  | .assignGroup _ | .disassignGroup _ _ | .registerRemotePcApi _ | .registerRemotePcWeb _
  | .deleteRemotePc _ _ => true
  | _ => false

/-- A name as wide as its column. -/
def wideName : String :=
  .ofList (List.replicate 255 'x')

/-- The call that registers a PC in the base group. -/
def registerInBaseGroup (pcName : String) : Operation :=
  .registerRemotePcApi
    { accessPassword := some "1234", remotePcName := some pcName, groupName := some "BaseGroup" }

/-- The second PC is sent with a blank after the name of the first one, which the search
does not find and the column cuts off. -/
theorem name_doubled_by_blank :
    ¬ ∀ (environment : Environment) (operations : List Operation),
      operations.all Operation.isDomainChange →
      DomainIntegrity
        (Transition.run (step environment) (initial environment) operations).db := by
  intro integrity
  have apart := (integrity .dev
    [registerInBaseGroup wideName, registerInBaseGroup (wideName.push ' ')] rfl).namesApart
  revert apart
  unfold PcNamesApart
  decide +kernel

end MegaVnc
