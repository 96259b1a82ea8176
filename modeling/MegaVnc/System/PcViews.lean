import MegaVnc.Foundation.Ascending
import MegaVnc.System.GroupGuard
import MegaVnc.System.RepeaterId
import MegaVnc.System.Usernames

/-! # The views of a member's PCs

The list over all groups, the list of one group, and the viewer each compute in
their own way which PCs a member may use. The list of one group is asked for by
the group's name, and two values of the name stand for all groups.
-/

namespace MegaVnc

open Relational Fallible Application
open Ascending (Ascends ascends_insertionSort pairwise_flatMap_filter)
open RemotePcService (allGroup sortById findByGroups findGroupByMember findById)

/-- The member has a membership in the group. -/
def Member.In (db : Database) (member : Member) (group : Long) : Prop :=
  ∃ memberGroup ∈ db.memberGroup.rows,
    memberGroup.member = member.id ∧ memberGroup.group = group

instance (db : Database) (member : Member) (group : Long) : Decidable (member.In db group) :=
  inferInstanceAs (Decidable (∃ memberGroup ∈ db.memberGroup.rows,
    memberGroup.member = member.id ∧ memberGroup.group = group))

/-- The list over all groups shows the PCs of the member's groups, each once and
in ascending id; the list of a group is the part of it in the group; and the
viewer opens what is listed and not offline. -/
structure Agreeing (db : Database) (user : User) (member : Member) (groups : List Group)
    (remotePcs : List ResponseRemotePcDto) : Prop where
  shown : showRemotePcs db user none = .ok (.remotePcs groups remotePcs)
  ascending : Ascends ResponseRemotePcDto.id remotePcs
  own : ∀ response, response ∈ remotePcs ↔ ∃ remotePc ∈ db.remotePc.rows,
    member.In db remotePc.group ∧ .ofRemotePc remotePc = response
  selected : ∀ group ∈ db.segment.rows, member.In db group.id →
    showRemotePcs db user group.groupName =
      .ok (.remotePcs groups (remotePcs.filter fun response => response.group = group.id))
  opened : ∀ id, (∃ remotePc, findById db user id = .ok remotePc) ↔
    ∃ response ∈ remotePcs, response.id = id ∧ response.status ≠ .offline

/-- The pages show one set of groups and PCs. -/
def ViewsAgree (db : Database) (user : User) (member : Member) : Prop :=
  ∃ groups remotePcs, Agreeing db user member groups remotePcs

/-- A name that selects all groups instead of one. -/
def SelectsAll (groupName : Option String) : Prop :=
  groupName = none ∨ groupName = some allGroup

instance (groupName : Option String) : Decidable (SelectsAll groupName) :=
  inferInstanceAs (Decidable (_ ∨ _))

variable {environment : Environment} {world : World} {db : Database} {user : User}
  {member : Member} {group : Group}

/-! ### The groups of a member -/

theorem findByMemberAndGroup_ne_nil {groupId : Long} :
    db.findByMemberAndGroup member groupId ≠ [] ↔ member.In db groupId := by
  rw [ne_eq, Database.findByMemberAndGroup, List.filter_eq_nil_iff]
  simp only [decide_eq_true_eq, not_forall, not_not, exists_prop, Member.In]

/-- The groups of a member, through its memberships. -/
def groupsOf (db : Database) (member : Member) : List Group :=
  (db.findByMember member).filterMap fun memberGroup => db.segment.findById memberGroup.group

theorem findGroupByMember_eq (known : db.findByUsername user.username = some member) :
    findGroupByMember db user = .ok (groupsOf db member) := by
  simp only [findGroupByMember, known, orElseThrow, ok_bind]
  rfl

/-- They are the stored groups the member is in. -/
theorem mem_groupsOf :
    group ∈ groupsOf db member ↔ group ∈ db.segment.rows ∧ member.In db group.id := by
  simp only [groupsOf, List.mem_filterMap, Database.findByMember, List.mem_filter,
    decide_eq_true_eq, Table.findById_eq_some, Member.In]
  constructor
  · rintro ⟨memberGroup, ⟨present, mine⟩, stored, named⟩
    exact ⟨stored, memberGroup, present, mine, named.symm⟩
  · rintro ⟨stored, memberGroup, present, mine, named⟩
    exact ⟨memberGroup, ⟨present, mine⟩, stored, named.symm⟩

/-- No group is found twice. -/
theorem groupsOf_apart (apart : MembershipsApart db) :
    ((groupsOf db member).map Group.id).Nodup := by
  have different : (db.findByMember member).Pairwise fun one other => one.group ≠ other.group := by
    have rows := (List.pairwise_map.mp apart).filter fun row => decide (row.member = member.id)
    refine rows.imp_of_mem fun {one other} oneIn otherIn distinct sameGroup => distinct ?_
    simp only [Database.findByMember, List.mem_filter, decide_eq_true_eq] at oneIn otherIn
    exact Prod.ext (oneIn.2.trans otherIn.2.symm) sameGroup
  rw [List.nodup_iff_pairwise_ne, List.pairwise_map, groupsOf, List.pairwise_filterMap]
  refine different.imp fun {one other} distinct group found group' found' same => distinct ?_
  have named := (Table.findById_eq_some.mp found).2
  have named' := (Table.findById_eq_some.mp found').2
  exact named.symm.trans (same.trans named')

/-! ### The lists -/

/-- The list over all groups of a member. -/
def pcsOfMember (db : Database) (member : Member) : List ResponseRemotePcDto :=
  findByGroups db (groupsOf db member)

/-- Without a selected group the page lists the PCs of all groups of the member. -/
theorem showRemotePcs_of_selectsAll (known : db.findByUsername user.username = some member)
    {groupName : Option String} (all : SelectsAll groupName) :
    showRemotePcs db user groupName =
      .ok (.remotePcs (groupsOf db member) (pcsOfMember db member)) := by
  rcases all with rfl | rfl
  · simp only [showRemotePcs, findGroupByMember_eq known, ok_bind]
    rfl
  · simp only [showRemotePcs, findGroupByMember_eq known, ok_bind, ↓reduceIte]
    rfl

/-- With a group of the member selected the page lists the PCs of that group. -/
theorem showRemotePcs_of_own (known : db.findByUsername user.username = some member)
    (apart : GroupNamesApart db) (stored : group ∈ db.segment.rows) (mine : member.In db group.id)
    (one : ¬ SelectsAll group.groupName) :
    showRemotePcs db user group.groupName = .ok (.remotePcs (groupsOf db member)
      (sortById ((db.findByGroup group.id).map .ofRemotePc))) := by
  have found := apart.findByGroupName stored
  have own := findByMemberAndGroup_ne_nil.mpr mine
  cases named : group.groupName with
  | none => exact (one (Or.inl named)).elim
  | some groupName =>
      have other : groupName ≠ allGroup := fun same => one (Or.inr (same ▸ named))
      rw [named] at found
      simp only [showRemotePcs, findGroupByMember_eq known, ok_bind, other, ↓reduceIte,
        RemotePcService.findByGroupName, found, known, orElseThrow, throwIf, own]
      rfl

/-- The list of all PCs has those of the groups the member is in, and no others. -/
theorem mem_pcsOfMember {response : ResponseRemotePcDto}
    (referring : ∀ remotePc ∈ db.remotePc.rows, ∃ group ∈ db.segment.rows,
      group.id = remotePc.group) :
    response ∈ pcsOfMember db member ↔ ∃ remotePc ∈ db.remotePc.rows,
      member.In db remotePc.group ∧ .ofRemotePc remotePc = response := by
  simp only [pcsOfMember, findByGroups, mem_sortById, List.mem_flatMap, mem_groupsOf,
    List.mem_map, Database.findByGroup, List.mem_filter, decide_eq_true_eq]
  constructor
  · rintro ⟨group, ⟨-, mine⟩, remotePc, ⟨present, named⟩, listed⟩
    exact ⟨remotePc, present, named ▸ mine, listed⟩
  · rintro ⟨remotePc, present, mine, listed⟩
    obtain ⟨group, stored, named⟩ := referring remotePc present
    exact ⟨group, ⟨stored, named ▸ mine⟩, remotePc, ⟨present, named.symm⟩, listed⟩

/-- The list over all groups ascends: no PC is in two of them. -/
theorem pcsOfMember_ascends (apart : MembershipsApart db) :
    Ascends ResponseRemotePcDto.id (pcsOfMember db member) := by
  apply ascends_insertionSort
  have pcs : ((groupsOf db member).flatMap fun group => (db.findByGroup group.id).map
      ResponseRemotePcDto.ofRemotePc) = (((groupsOf db member).map Group.id).flatMap
        fun group => db.remotePc.rows.filter fun remotePc => remotePc.group = group).map
          .ofRemotePc := by
    rw [List.map_flatMap, List.flatMap_map]
    rfl
  rw [pcs, List.pairwise_map]
  have rows : db.remotePc.rows.Pairwise fun one other => one.id ≠ other.id := db.remotePc.keys_apart
  refine pairwise_flatMap_filter RemotePc.group (groupsOf_apart apart) rows ?_
  intro one oneIn other otherIn different sameId
  have same : one = other := Table.eq_of_key_eq oneIn otherIn sameId
  exact different (congrArg RemotePc.group same)

/-- The list of a group is the part of the list over all groups. -/
theorem pcsOfMember_filter (intact : Intact db) (mine : member.In db group.id) :
    sortById ((db.findByGroup group.id).map .ofRemotePc) =
      (pcsOfMember db member).filter fun response => response.group = group.id := by
  have ascends : Ascends ResponseRemotePcDto.id
      (sortById ((db.findByGroup group.id).map .ofRemotePc)) := by
    apply ascends_insertionSort
    rw [List.pairwise_map]
    exact db.remotePc.keys_apart.filter _
  apply ascends.eq_of_mem_iff ((pcsOfMember_ascends intact.membershipsApart).filter _)
  intro response
  simp only [mem_sortById, List.mem_map, Database.findByGroup, List.mem_filter,
    decide_eq_true_eq, mem_pcsOfMember intact.referring.pcGroups]
  constructor
  · rintro ⟨remotePc, ⟨present, named⟩, rfl⟩
    exact ⟨⟨remotePc, present, named ▸ mine, rfl⟩, named⟩
  · rintro ⟨⟨remotePc, present, -, rfl⟩, named⟩
    exact ⟨remotePc, ⟨present, named⟩, rfl⟩

/-! ### The viewer -/

/-- The viewer page finds a PC exactly when it is online and in a group of the member. -/
theorem findById_eq_ok {id : Long} {remotePc : RemotePc}
    (known : db.findByUsername user.username = some member) :
    findById db user id = .ok remotePc ↔ remotePc ∈ db.remotePc.rows ∧ remotePc.id = id ∧
      remotePc.status ≠ .offline ∧ member.In db remotePc.group := by
  simp only [findById, bind_eq_ok, orElseThrow_eq_ok, throwIf_eq_ok, pure_eq_ok,
    Table.findById_eq_some, known, Option.some.injEq]
  constructor
  · rintro ⟨found, ⟨present, named⟩, -, running, _, rfl, -, own, rfl⟩
    exact ⟨present, named, running, findByMemberAndGroup_ne_nil.mp own⟩
  · rintro ⟨present, named, running, mine⟩
    exact ⟨remotePc, ⟨present, named⟩, (), running, member, rfl, (),
      findByMemberAndGroup_ne_nil.mpr mine, rfl⟩

/-! ### Agreement -/

/-- The list of a group whose name selects all groups is right when there is no
PC elsewhere. -/
theorem pcsOfMember_eq_filter_iff (intact : Intact db) (groupId : Long) :
    (pcsOfMember db member).filter (fun response => response.group = groupId) =
        pcsOfMember db member ↔
      ∀ remotePc ∈ db.remotePc.rows, member.In db remotePc.group → remotePc.group = groupId := by
  simp only [List.filter_eq_self, mem_pcsOfMember intact.referring.pcGroups, decide_eq_true_eq]
  constructor
  · intro within remotePc present mine
    exact within (.ofRemotePc remotePc) ⟨remotePc, present, mine, rfl⟩
  · rintro within response ⟨remotePc, present, mine, rfl⟩
    exact within remotePc present mine

/-- The views of a member's PCs agree if and only if no group of the member has a
name that selects all groups, unless all PCs of the member are in it. -/
theorem viewsAgree_iff (reached : Application.Reachable environment world)
    (present : member ∈ world.db.member.rows) (session : user.username = member.username) :
    ViewsAgree world.db user member ↔
      ∀ group ∈ world.db.segment.rows, member.In world.db group.id →
        SelectsAll group.groupName → ∀ remotePc ∈ world.db.remotePc.rows,
          member.In world.db remotePc.group → remotePc.group = group.id := by
  have intact := reached.intact
  have known : world.db.findByUsername user.username = some member :=
    session ▸ reached.usernamesApart.findByUsername present
  have ofAll {groupName : Option String} (all : SelectsAll groupName) :=
    showRemotePcs_of_selectsAll known all
  constructor
  · rintro ⟨groups, remotePcs, agreeing⟩ group stored mine all
    have same := (ofAll (Or.inl rfl)).symm.trans agreeing.shown
    simp only [Except.ok.injEq, Reply.remotePcs.injEq] at same
    obtain ⟨rfl, rfl⟩ := same
    have selected := (agreeing.selected group stored mine).symm.trans (ofAll all)
    simp only [Except.ok.injEq, Reply.remotePcs.injEq, true_and] at selected
    exact (pcsOfMember_eq_filter_iff intact group.id).mp selected
  · intro within
    refine ⟨groupsOf world.db member, pcsOfMember world.db member, ?_, ?_, ?_, ?_, ?_⟩
    · exact ofAll (Or.inl rfl)
    · exact pcsOfMember_ascends intact.membershipsApart
    · exact fun response => mem_pcsOfMember intact.referring.pcGroups
    · intro group stored mine
      by_cases all : SelectsAll group.groupName
      · rw [ofAll all,
          (pcsOfMember_eq_filter_iff intact group.id).mpr (within group stored mine all)]
      · rw [showRemotePcs_of_own known intact.groupNamesApart stored mine all,
          pcsOfMember_filter intact mine]
    · intro id
      simp only [findById_eq_ok known, mem_pcsOfMember intact.referring.pcGroups]
      constructor
      · rintro ⟨remotePc, stored, named, running, mine⟩
        exact ⟨.ofRemotePc remotePc, ⟨remotePc, stored, mine, rfl⟩, named, running⟩
      · rintro ⟨_, ⟨remotePc, stored, mine, rfl⟩, named, running⟩
        exact ⟨remotePc, stored, named, running, mine⟩

/-- The member the application starts with. -/
def firstAdmin : Member :=
  .createMember Environment.dev.encodePassword (some "admin") "!mb220719" .roleAdmin 1

theorem firstAdmin_viewsAgree : ViewsAgree laboratory.db adminUser firstAdmin :=
  (@viewsAgree_iff .dev laboratory adminUser firstAdmin ⟨[createLab, registerInLab "PC-1"], rfl⟩
    (by decide +kernel) (by decide)).mpr (by decide +kernel)

/-- A second group is named "All Group": the list of it shows the laboratory's
PC. -/
theorem allGroup_disagrees :
    ¬ ∀ (environment : Environment) (world : World), Application.Reachable environment world →
      ∀ member ∈ world.db.member.rows, ∀ user : User, user.username = member.username →
        ViewsAgree world.db user member := by
  intro agree
  have reached : Application.Reachable .dev (step .dev laboratory (.createGroup (some allGroup))) :=
    ⟨[createLab, registerInLab "PC-1", .createGroup (some allGroup)], rfl⟩
  have present : firstAdmin ∈
      (step .dev laboratory (.createGroup (some allGroup))).db.member.rows := by decide +kernel
  obtain ⟨groups, remotePcs, agreeing⟩ := agree .dev _ reached firstAdmin present adminUser rfl
  have known : (step .dev laboratory (.createGroup (some allGroup))).db.findByUsername
      adminUser.username = some firstAdmin := by decide +kernel
  have selected := agreeing.selected (.createGroup (some allGroup) 3) (by decide +kernel)
    (by decide +kernel)
  have all := (showRemotePcs_of_selectsAll known (Or.inl rfl)).symm.trans agreeing.shown
  rw [show (Group.createGroup (some allGroup) 3).groupName = some allGroup from rfl,
    showRemotePcs_of_selectsAll known (Or.inr rfl), all] at selected
  simp only [Except.ok.injEq, Reply.remotePcs.injEq, true_and] at selected
  have listed := (agreeing.own (.ofRemotePc (labPc 101 "PC-1" 2))).mpr
    ⟨labPc 101 "PC-1" 2, by decide +kernel, by decide +kernel, rfl⟩
  rw [selected] at listed
  exact absurd (of_decide_eq_true (List.mem_filter.mp listed).2) (by decide)

end MegaVnc
