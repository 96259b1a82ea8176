import Mathlib.Data.List.Find
import MegaVnc.System.DomainIntegrity

/-! # The PCs of some groups

Databases with the same groups, users and memberships and the same PCs in some
groups are alike to the members of these groups. Every operation changes two
such databases alike, up to the numbers a registration gives and to a
reconnectId that PCs inside and outside the groups share.
-/

namespace MegaVnc

open Relational Fallible Application

section

variable (mine : Long → Prop) [DecidablePred mine]

/-- The PCs of the groups. -/
def Database.pcsOf (db : Database) : List RemotePc :=
  db.remotePc.rows.filter fun remotePc => mine remotePc.group

/-- Two databases differ only in the PCs of other groups, and in what no page of PCs reads. -/
structure Database.Alike (first second : Database) : Prop where
  segment : first.segment = second.segment
  member : first.member = second.member
  memberGroup : first.memberGroup = second.memberGroup
  pcs : first.pcsOf mine = second.pcsOf mine

end

variable {mine : Long → Prop} [DecidablePred mine] {first second : Database}

theorem pcsOf_deleteRemotePcsWhere (db : Database) (doomed : RemotePc → Prop)
    [DecidablePred doomed] : (db.deleteRemotePcsWhere doomed).pcsOf mine =
      (db.pcsOf mine).filter fun remotePc => ¬ doomed remotePc :=
  List.filter_comm ..

namespace Database.Alike

/-- Being alike goes both ways. -/
theorem symm (alike : first.Alike mine second) : second.Alike mine first where
  segment := alike.segment.symm
  member := alike.member.symm
  memberGroup := alike.memberGroup.symm
  pcs := alike.pcs.symm

/-- Being alike goes from one to the next. -/
theorem trans {third : Database} (alike : first.Alike mine second)
    (other : second.Alike mine third) : first.Alike mine third where
  segment := alike.segment.trans other.segment
  member := alike.member.trans other.member
  memberGroup := alike.memberGroup.trans other.memberGroup
  pcs := alike.pcs.trans other.pcs

/-! ### Queries -/

theorem findByGroupName (alike : first.Alike mine second) (groupName : Option String) :
    first.findByGroupName groupName = second.findByGroupName groupName := by
  rw [Database.findByGroupName, alike.segment, Database.findByGroupName]

theorem findByRole (alike : first.Alike mine second) (role : Role) :
    first.findByRole role = second.findByRole role := by
  rw [Database.findByRole, alike.member, Database.findByRole]

theorem findByUsername (alike : first.Alike mine second) (username : Option String) :
    first.findByUsername username = second.findByUsername username := by
  rw [Database.findByUsername, alike.member, Database.findByUsername]

theorem findByMember (alike : first.Alike mine second) (member : Member) :
    first.findByMember member = second.findByMember member := by
  rw [Database.findByMember, alike.memberGroup, Database.findByMember]

theorem findByMemberAndGroup (alike : first.Alike mine second) (member : Member) (group : Long) :
    first.findByMemberAndGroup member group = second.findByMemberAndGroup member group := by
  rw [Database.findByMemberAndGroup, alike.memberGroup, Database.findByMemberAndGroup]

/-! ### Groups, users and memberships -/

theorem store {Written : Type} {written : Option Written}
    {place other : Written → Database} (alike : ∀ table, (place table).Alike mine (other table)) :
    Together (Alike mine) (Database.store written place) (Database.store written other) :=
  .after fun table _ => alike table

theorem saveGroup (alike : first.Alike mine second) (groupName : Option String) :
    Together (Alike mine) (first.saveGroup groupName) (second.saveGroup groupName) := by
  rw [Database.saveGroup, alike.segment]
  exact store fun table => { alike with segment := rfl }

/-- A member is stored alike. -/
theorem saveMember (alike : first.Alike mine second) (encode : String → String)
    (username : Option String) (password : String) (role : Role) :
    Together (Alike mine) (first.saveMember encode username password role)
      (second.saveMember encode username password role) := by
  rw [Database.saveMember, alike.member]
  exact store fun table => { alike with member := rfl }

theorem updateMember (alike : first.Alike mine second) (member : Member) :
    Together (Alike mine) (first.updateMember member) (second.updateMember member) := by
  rw [Database.updateMember, alike.member]
  exact store fun table => { alike with member := rfl }

/-- A membership is stored alike. -/
theorem saveMemberGroup (alike : first.Alike mine second) (member group : Long) :
    Together (Alike mine) (first.saveMemberGroup member group)
      (second.saveMemberGroup member group) := by
  rw [Database.saveMemberGroup, alike.memberGroup]
  exact store fun table => { alike with memberGroup := rfl }

/-- Memberships are deleted alike. -/
theorem deleteMemberGroupsWhere (alike : first.Alike mine second) (doomed : MemberGroup → Prop)
    [DecidablePred doomed] : (first.deleteMemberGroupsWhere doomed).Alike mine
      (second.deleteMemberGroupsWhere doomed) :=
  { alike with
    memberGroup := by
      rw [Database.deleteMemberGroupsWhere, alike.memberGroup, Database.deleteMemberGroupsWhere] }

theorem deleteMemberRow (alike : first.Alike mine second) (member : Member) :
    (first.deleteMemberRow member).Alike mine (second.deleteMemberRow member) :=
  { alike with
    member := by rw [Database.deleteMemberRow, alike.member, Database.deleteMemberRow] }

theorem deleteGroupRow (alike : first.Alike mine second) (group : Group) :
    (first.deleteGroupRow group).Alike mine (second.deleteGroupRow group) :=
  { alike with
    segment := by rw [Database.deleteGroupRow, alike.segment, Database.deleteGroupRow] }

/-- PCs are deleted alike. -/
theorem deleteRemotePcsWhere (alike : first.Alike mine second) (doomed : RemotePc → Prop)
    [DecidablePred doomed] : (first.deleteRemotePcsWhere doomed).Alike mine
      (second.deleteRemotePcsWhere doomed) :=
  { alike with
    pcs := by rw [pcsOf_deleteRemotePcsWhere, pcsOf_deleteRemotePcsWhere, alike.pcs] }

/-- A group is created on both sides or on neither. -/
theorem registerGroup (alike : first.Alike mine second) (groupName : Option String) :
    Together (Alike mine) (AdminGroupService.register first groupName)
      (AdminGroupService.register second groupName) := by
  unfold AdminGroupService.register
  rw [alike.findByGroupName, alike.findByRole, alike.segment]
  refine .after fun _ _ => .after fun _ _ => .after fun _ _ => .after fun admin _ => ?_
  exact (alike.saveGroup groupName).bind fun _ _ saved => saved.saveMemberGroup _ _

/-- A group is deleted on both sides or on neither. -/
theorem deleteGroup (alike : first.Alike mine second) (groupId : Long) :
    Together (Alike mine) (AdminGroupService.deleteGroup first groupId)
      (AdminGroupService.deleteGroup second groupId) := by
  unfold AdminGroupService.deleteGroup
  rw [alike.segment]
  refine .after fun group _ => .after fun _ _ => ?_
  exact ((alike.deleteRemotePcsWhere _).deleteMemberGroupsWhere _).deleteGroupRow group

/-- A user is registered on both sides or on neither. -/
theorem registerUser (alike : first.Alike mine second) (encode : String → String)
    (user : UserRegisterDto) :
    Together (Alike mine) (AdminUserService.register encode first user)
      (AdminUserService.register encode second user) := by
  unfold AdminUserService.register
  rw [alike.findByUsername]
  refine .after fun password _ => .after fun _ _ => .after fun _ _ => ?_
  exact alike.saveMember encode user.username password .roleUser

/-- A user is deleted on both sides or on neither. -/
theorem deleteUser (alike : first.Alike mine second) (memberId : Long) :
    Together (Alike mine) (AdminUserService.deleteUser first memberId)
      (AdminUserService.deleteUser second memberId) := by
  unfold AdminUserService.deleteUser
  rw [alike.member]
  refine .after fun member _ => .after fun _ _ => ?_
  exact (alike.deleteMemberGroupsWhere _).deleteMemberRow member

/-- A group is assigned on both sides or on neither. -/
theorem assignGroup (alike : first.Alike mine second) (assignGroupDto : AssignGroupDto) :
    Together (Alike mine) (AdminAssignService.assignGroup first assignGroupDto)
      (AdminAssignService.assignGroup second assignGroupDto) := by
  unfold AdminAssignService.assignGroup
  rw [alike.member, alike.segment]
  refine .after fun userId _ => .after fun member _ => .after fun groupId _ =>
    .after fun group _ => ?_
  rw [alike.findByMemberAndGroup]
  exact .after fun _ _ => alike.saveMemberGroup member.id group.id

/-- A group is taken away on both sides or on neither. -/
theorem disassignGroup (alike : first.Alike mine second) (memberId groupId : Long) :
    Together (Alike mine) (AdminAssignService.disassignGroup first memberId groupId)
      (AdminAssignService.disassignGroup second memberId groupId) := by
  unfold AdminAssignService.disassignGroup
  rw [alike.member, alike.segment]
  exact .after fun _ _ => .after fun _ _ => .after fun _ _ => alike.deleteMemberGroupsWhere _

/-- A change of the password has one outcome on both sides. -/
theorem processChangePassword (alike : first.Alike mine second) (environment : Environment)
    (changePassword : ChangePasswordDto) (user : User) :
    Together (fun changed other => changed.1 = other.1 ∧ changed.2.Alike mine other.2)
      (ChangePasswordController.processChangePassword environment first changePassword user)
      (ChangePasswordController.processChangePassword environment second changePassword user) := by
  unfold ChangePasswordController.processChangePassword UserService.changePassword
  rw [alike.findByUsername]
  refine .after fun password _ => .after fun newPassword _ => ?_
  split
  · refine Together.bind ?_ fun _ _ changed => ⟨rfl, changed⟩
    exact .after fun member _ => alike.updateMember _
  · exact ⟨rfl, alike⟩

/-! ### The pages of a user -/

end Database.Alike

/-- The user with the name has a membership in the group. -/
def Database.InGroup (db : Database) (username : Option String) (group : Long) : Prop :=
  ∃ member, db.findByUsername username = some member ∧ db.findByMemberAndGroup member group ≠ []

variable {user : User}

/-- The PCs of an own group are among the own PCs. -/
theorem Database.findByGroup_pcsOf {db : Database} {group : Long} (own : mine group) :
    db.findByGroup group = (db.pcsOf mine).filter fun remotePc => remotePc.group = group := by
  rw [Database.findByGroup, Database.pcsOf, List.filter_filter]
  refine List.filter_congr fun remotePc _ => ?_
  by_cases grouped : remotePc.group = group
  · simp only [grouped, own, decide_true, Bool.and_self]
  · simp only [grouped, decide_false, Bool.false_and]

/-- The groups that are found for a user are those of the memberships. -/
theorem inGroup_of_mem {db : Database} {groups : List Group}
    (found : RemotePcService.findGroupByMember db user = .ok groups) {group : Group}
    (among : group ∈ groups) : db.InGroup user.username group.id := by
  simp only [RemotePcService.findGroupByMember, bind_eq_ok, orElseThrow_eq_ok,
    pure_eq_ok] at found
  obtain ⟨member, known, rfl⟩ := found
  obtain ⟨memberGroup, assigned, grouped⟩ := List.mem_filterMap.mp among
  simp only [Database.findByMember, List.mem_filter, decide_eq_true_eq] at assigned
  have named : group.id = memberGroup.group := (Table.findById_eq_some.mp grouped).2
  refine ⟨member, known, List.ne_nil_of_mem (a := memberGroup) ?_⟩
  simp only [Database.findByMemberAndGroup, List.mem_filter, decide_eq_true_eq]
  exact ⟨assigned.1, assigned.2, named.symm⟩

namespace Database.Alike

/-- A user is in the same groups on both sides. -/
theorem inGroup (alike : first.Alike mine second) {username : Option String} {group : Long}
    (inside : first.InGroup username group) : second.InGroup username group := by
  obtain ⟨member, known, assigned⟩ := inside
  exact ⟨member, alike.findByUsername username ▸ known,
    alike.findByMemberAndGroup member group ▸ assigned⟩

theorem findByGroup (alike : first.Alike mine second) {group : Long} (own : mine group) :
    first.findByGroup group = second.findByGroup group := by
  rw [Database.findByGroup_pcsOf own, alike.pcs, Database.findByGroup_pcsOf own]

/-- Several groups have the same PCs on both sides. -/
theorem findByGroups (alike : first.Alike mine second) {groups : List Group}
    (own : ∀ group ∈ groups, mine group.id) :
    RemotePcService.findByGroups first groups = RemotePcService.findByGroups second groups := by
  unfold RemotePcService.findByGroups
  congr 1
  refine List.flatMap_congr fun group among => ?_
  rw [alike.findByGroup (own group among)]

/-- The groups of a user are found alike. -/
theorem findGroupByMember (alike : first.Alike mine second) (user : User) :
    RemotePcService.findGroupByMember first user =
      RemotePcService.findGroupByMember second user := by
  unfold RemotePcService.findGroupByMember
  rw [alike.findByUsername, alike.segment]
  exact bind_congr fun member => by rw [alike.findByMember]

/-- The list of one group is checked first. -/
theorem findByGroupName_page (alike : first.Alike mine second)
    (own : ∀ group, first.InGroup user.username group → mine group) (groupName : String) :
    RemotePcService.findByGroupName first groupName user =
      RemotePcService.findByGroupName second groupName user := by
  unfold RemotePcService.findByGroupName
  rw [alike.findByGroupName]
  refine bind_congr fun group => ?_
  cases known : first.findByUsername user.username with
  | none =>
      rw [← alike.findByUsername, known]
      rfl
  | some member =>
      rw [← alike.findByUsername, known]
      simp only [orElseThrow, ok_bind]
      rw [← alike.findByMemberAndGroup]
      by_cases outside : first.findByMemberAndGroup member group.id = []
      · simp only [outside, throwIf, ↓reduceIte, error_bind]
      · rw [alike.findByGroup (own group.id ⟨member, known, outside⟩)]

/-- The page of the PCs is the same on both sides. -/
theorem showRemotePcs (alike : first.Alike mine second)
    (own : ∀ group, first.InGroup user.username group → mine group)
    (selectedGroupName : Option String) :
    Application.showRemotePcs first user selectedGroupName =
      Application.showRemotePcs second user selectedGroupName := by
  unfold Application.showRemotePcs
  rw [← alike.findGroupByMember]
  cases found : RemotePcService.findGroupByMember first user with
  | error exception => rfl
  | ok groups =>
      have ofAll := alike.findByGroups fun group among => own group.id (inGroup_of_mem found among)
      simp only [ok_bind, ofAll, alike.findByGroupName_page own]

end Database.Alike

theorem mem_pcsOf {db : Database} {remotePc : RemotePc} :
    remotePc ∈ db.pcsOf mine ↔ remotePc ∈ db.remotePc.rows ∧ mine remotePc.group := by
  rw [Database.pcsOf, List.mem_filter, decide_eq_true_eq]

/-- An own PC is stored on both sides. -/
theorem Database.Alike.mem {remotePc : RemotePc} (alike : first.Alike mine second)
    (own : mine remotePc.group) (member : remotePc ∈ first.remotePc.rows) :
    remotePc ∈ second.remotePc.rows := by
  have listed : remotePc ∈ first.pcsOf mine := mem_pcsOf.mpr ⟨member, own⟩
  rw [alike.pcs] at listed
  exact (mem_pcsOf.mp listed).1

/-- Whether a PC is stored, and whether it is offline: the viewer tells this
before it checks the membership. -/
def Database.offline (db : Database) (id : Long) : Option Bool :=
  (db.remotePc.findById id).map fun remotePc => remotePc.status = .offline

variable {remotePc : RemotePc} {id : Long}

/-- A user who is outside learns of a PC only whether it is offline. -/
theorem findById_refused {db : Database} (found : db.remotePc.findById id = some remotePc)
    (outside : ¬ db.InGroup user.username remotePc.group) :
    RemotePcService.findById db user id = (do
      throwIf (remotePc.status = .offline) (.remotePc .offlineStatus "페이지를 새로고침 해주세요.")
      let _ ← orElseThrow (db.findByUsername user.username) RemotePcService.memberNotFound
      .error (.remotePc .ownGroupOnly "")) := by
  simp only [RemotePcService.findById, found, orElseThrow, ok_bind]
  refine bind_congr fun _ => ?_
  cases known : db.findByUsername user.username with
  | none => rfl
  | some member =>
      have unassigned : db.findByMemberAndGroup member remotePc.group = [] := by
        by_contra assigned
        exact outside ⟨member, known, assigned⟩
      simp only [unassigned, throwIf, ↓reduceIte, ok_bind, error_bind]

/-- The page of a PC is the same when that is told alike. -/
theorem Database.Alike.showViewer (alike : first.Alike mine second)
    (own : ∀ group, first.InGroup user.username group → mine group)
    (told : first.offline id = second.offline id) :
    Application.showViewer first user id = Application.showViewer second user id := by
  have same : RemotePcService.findById first user id = RemotePcService.findById second user id := by
    unfold Database.offline at told
    cases found : first.remotePc.findById id with
    | none =>
        rw [found] at told
        have missing := Option.map_eq_none_iff.mp told.symm
        simp only [RemotePcService.findById, found, missing, orElseThrow, error_bind]
    | some remotePc =>
        rw [found] at told
        obtain ⟨other, otherFound, sameStatus⟩ := Option.map_eq_some_iff.mp told.symm
        obtain ⟨member, named⟩ := Table.findById_eq_some.mp found
        obtain ⟨otherIn, otherNamed⟩ := Table.findById_eq_some.mp otherFound
        by_cases inside : mine remotePc.group
        · have unique : other = remotePc := Table.eq_of_key_eq otherIn (alike.mem inside member)
            (otherNamed.trans named.symm)
          rw [unique] at otherFound
          simp only [RemotePcService.findById, found, otherFound, orElseThrow, ok_bind]
          rw [alike.findByUsername]
          refine bind_congr fun _ => bind_congr fun known => ?_
          rw [alike.findByMemberAndGroup]
        · have outside : ¬ mine other.group := by
            intro own
            have unique : remotePc = other := Table.eq_of_key_eq member
              (alike.symm.mem own otherIn) (named.trans otherNamed.symm)
            exact inside (unique ▸ own)
          rw [findById_refused found fun within => inside (own _ within),
            findById_refused otherFound fun within => outside (own _ (alike.symm.inGroup within)),
            alike.findByUsername]
          have offline : remotePc.status = .offline ↔ other.status = .offline :=
            (decide_eq_decide.mp sameStatus).symm
          simp only [throwIf, offline]
  rw [Application.showViewer, same, Application.showViewer]

/-! ### One row changes -/

variable {old new : RemotePc} {after next : Table RemotePc}

/-- A changed row changes in the list of its group. -/
theorem pcsOf_replace {db : Database} (present : old ∈ db.remotePc.rows)
    (same : old.SameIdentity new) (rows : after.rows = Table.replace db.remotePc.rows new) :
    ({ db with remotePc := after } : Database).pcsOf mine =
      Table.replace (db.pcsOf mine) new := by
  change (after.rows.filter _) = _
  rw [rows, Table.replace, List.filter_map, Database.pcsOf, Table.replace]
  congr 1
  refine List.filter_congr fun row member => ?_
  rw [Function.comp_apply]
  by_cases hit : key row = key new
  · have unique : row = old := Table.eq_of_key_eq member present (hit.trans same.1.symm)
    rw [if_pos hit, unique, same.2.2.2.2]
  · rw [if_neg hit]

/-- A row outside the groups may change. -/
theorem pcsOf_replace_foreign {db : Database} (present : old ∈ db.remotePc.rows)
    (same : old.SameIdentity new) (foreign : ¬ mine old.group)
    (rows : after.rows = Table.replace db.remotePc.rows new) :
    ({ db with remotePc := after } : Database).pcsOf mine = db.pcsOf mine := by
  rw [pcsOf_replace present same rows, Table.replace]
  refine (List.map_congr_left fun row listed => ?_).trans (List.map_id _)
  obtain ⟨member, own⟩ := mem_pcsOf.mp listed
  refine if_neg fun hit => foreign ?_
  have unique : row = old := Table.eq_of_key_eq member present (hit.trans same.1.symm)
  exact unique ▸ own

namespace Database.Alike

/-- The same row changes in both. -/
theorem replaced (alike : first.Alike mine second) (present : old ∈ first.remotePc.rows)
    (own : mine old.group) (same : old.SameIdentity new)
    (rows : after.rows = Table.replace first.remotePc.rows new)
    (others : next.rows = Table.replace second.remotePc.rows new) :
    ({ first with remotePc := after } : Database).Alike mine
      { second with remotePc := next } :=
  { alike with
    pcs := by
      rw [pcsOf_replace present same rows, pcsOf_replace (alike.mem own present) same others,
        alike.pcs] }

/-- Where one flush is accepted, so is the other. -/
theorem exists_flush {entity : Managed} (alike : first.Alike mine second)
    (present : entity.loaded ∈ first.remotePc.rows) (own : mine entity.loaded.group)
    (same : entity.loaded.SameIdentity entity.current) {written : Database}
    (flushed : first.flush entity = .ok written) :
    ∃ other, second.flush entity = .ok other ∧ written.Alike mine other := by
  obtain ⟨kept, fits, after, rfl, rows, -⟩ := RemotePcApiService.flush_eq_ok present flushed
  have presentToo := alike.mem own present
  obtain ⟨other, flushedToo⟩ := RemotePcApiService.exists_flush presentToo same.1.symm
    same.2.1.symm fits
  obtain ⟨_, fitsToo, next, rfl, others, -⟩ :=
    RemotePcApiService.flush_eq_ok presentToo flushedToo
  cases fits.symm.trans fitsToo
  have sameKept := same.fit (first.remotePc.rows_fit _ present) fits
  exact ⟨_, flushedToo, alike.replaced present own sameKept rows others⟩

/-- A commit of an own PC is taken on both sides or on neither. -/
theorem flush {entity : Managed} (alike : first.Alike mine second)
    (present : entity.loaded ∈ first.remotePc.rows) (own : mine entity.loaded.group)
    (same : entity.loaded.SameIdentity entity.current) :
    Together (Alike mine) (first.flush entity) (second.flush entity) := by
  refine .of_ok (fun written flushed => alike.exists_flush present own same flushed)
    fun written flushed => ?_
  obtain ⟨other, flushedToo, -⟩ :=
    alike.symm.exists_flush (alike.mem own present) own same flushed
  exact ⟨other, flushedToo⟩

/-! ### Calls of the clients -/

/-- A PC is searched by name in its group. -/
theorem find?_named (alike : first.Alike mine second) {pcName : Option String} {group : Group}
    (own : mine group.id) :
    (first.findByName pcName).find? (fun row => row.group = group.id) =
      (second.findByName pcName).find? (fun row => row.group = group.id) := by
  have inGroup (db : Database) :
      (db.findByName pcName).find? (fun row => row.group = group.id) =
        ((db.findByGroup group.id).find? fun row => some row.name = pcName) := by
    rw [Database.findByName, Database.findByGroup, List.find?_filter, List.find?_filter]
    refine List.find?_congr fun row _ => ?_
    simp only [decide_eq_true_eq, and_comm]
  rw [inGroup, inGroup, alike.findByGroup own]

/-- A call for an own group is answered alike. -/
theorem connectSettingRepeater (alike : first.Alike mine second)
    {remotePcDto : RequestRemotePcDto} {group : Group}
    (inGroup : first.findByGroupName remotePcDto.groupName = some group) (own : mine group.id) :
    Together (fun answered other => answered.2.Alike mine other.2)
      (RemotePcApiService.connectSettingRepeater first remotePcDto)
      (RemotePcApiService.connectSettingRepeater second remotePcDto) := by
  have same : ∀ entity, RemotePcApiService.connectTransaction first remotePcDto = .ok entity ↔
      RemotePcApiService.connectTransaction second remotePcDto = .ok entity := by
    intro entity
    rw [RemotePcApiService.connectTransaction_eq_ok, RemotePcApiService.connectTransaction_eq_ok,
      ← alike.findByGroupName, inGroup]
    refine exists_congr fun named => exists_congr fun remotePc => exists_congr fun reconnectId =>
      and_congr_right fun sameGroup => ?_
    cases sameGroup
    rw [alike.find?_named own]
  unfold RemotePcApiService.connectSettingRepeater
  refine (Together.of_iff same).bind fun entity _ ⟨granted, sameEntity⟩ => ?_
  subst sameEntity
  obtain ⟨_, remotePc, reconnectId, sameGroup, found, -, -, -, rfl⟩ :=
    RemotePcApiService.connectTransaction_eq_ok.mp granted
  cases inGroup.symm.trans sameGroup
  obtain ⟨present, -, grouped⟩ := RemotePcApiService.mem_of_find? found
  have identity : remotePc.SameIdentity (RemotePcApiService.connected reconnectId remotePc) := by
    unfold RemotePcApiService.connected
    split <;> exact ⟨rfl, rfl, rfl, rfl, rfl⟩
  have ownPc : mine remotePc.group := grouped ▸ own
  refine Together.bind (alike.flush present ownPc identity) fun _ _ written => ?_
  exact written

end Database.Alike

section

variable (mine)

/-- A PC outside the groups holds the reconnectId. -/
def Database.HeldOutside (db : Database) (reconnectId : String) : Prop :=
  ∃ remotePc ∈ db.remotePc.rows, remotePc.reconnectId = some reconnectId ∧ ¬ mine remotePc.group

end

variable {reconnectId : String}

/-- The PC found by a reconnectId holds it alone. -/
theorem findByReconnectId_alone {db : Database} {other : RemotePc}
    (found : db.findByReconnectId reconnectId = .ok (some remotePc))
    (member : other ∈ db.remotePc.rows) (holds : other.reconnectId = some reconnectId) :
    other = remotePc := by
  have held : other ∈ db.remotePc.rows.filter fun row => row.reconnectId = some reconnectId :=
    List.mem_filter.mpr ⟨member, decide_eq_true holds⟩
  rw [Database.findByReconnectId_eq_ok_some_iff.mp found] at held
  exact List.mem_singleton.mp held

namespace Database.Alike

/-- A reconnectId that a PC of the groups holds alone finds it in both. -/
theorem findByReconnectId (alike : first.Alike mine second) {holder : RemotePc}
    (present : holder ∈ first.remotePc.rows) (own : mine holder.group)
    (holds : holder.reconnectId = some reconnectId)
    (outside : second.HeldOutside mine reconnectId → first.HeldOutside mine reconnectId)
    (found : first.findByReconnectId reconnectId = .ok (some remotePc)) :
    remotePc = holder ∧ second.findByReconnectId reconnectId = .ok (some remotePc) := by
  have isHolder := findByReconnectId_alone found present holds
  subst isHolder
  refine ⟨rfl, Database.findByReconnectId_of_alone (alike.mem own present) holds
    fun other member held => ?_⟩
  by_cases inside : mine other.group
  · exact findByReconnectId_alone found (alike.symm.mem inside member) held
  · obtain ⟨foreign, foreignIn, foreignHolds, apart⟩ := outside ⟨other, member, held, inside⟩
    exact (apart (findByReconnectId_alone found foreignIn foreignHolds ▸ own)).elim

/-- A release of an own PC takes place on both sides or on neither, as the other holders of
the reconnectId decide. -/
theorem disAssign (alike : first.Alike mine second) {holder : RemotePc}
    (present : holder ∈ first.remotePc.rows) (own : mine holder.group)
    (holds : holder.reconnectId = some reconnectId)
    (outside : first.HeldOutside mine reconnectId ↔ second.HeldOutside mine reconnectId) :
    Together (Alike mine) (RemotePcApiService.disAssignRemotePcByRepeaterId first reconnectId)
      (RemotePcApiService.disAssignRemotePcByRepeaterId second reconnectId) := by
  have same : ∀ entity, RemotePcApiService.disAssignTransaction first reconnectId = .ok entity ↔
      RemotePcApiService.disAssignTransaction second reconnectId = .ok entity := by
    intro entity
    rw [RemotePcApiService.disAssignTransaction_eq_ok,
      RemotePcApiService.disAssignTransaction_eq_ok]
    refine exists_congr fun remotePc => and_congr_left fun _ => ⟨fun found => ?_, fun found => ?_⟩
    · exact (alike.findByReconnectId present own holds outside.mpr found).2
    · exact (alike.symm.findByReconnectId (alike.mem own present) own holds outside.mp found).2
  unfold RemotePcApiService.disAssignRemotePcByRepeaterId
  refine (Together.of_iff same).bind fun entity _ ⟨released, sameEntity⟩ => ?_
  subst sameEntity
  obtain ⟨remotePc, found, rfl⟩ := RemotePcApiService.disAssignTransaction_eq_ok.mp released
  obtain ⟨rfl, -⟩ := alike.findByReconnectId present own holds outside.mpr found
  exact alike.flush present own ⟨rfl, rfl, rfl, rfl, rfl⟩

/-! ### Registrations -/

/-- A name is taken in an own group on both sides or on neither. -/
theorem existsByNameAndGroup (alike : first.Alike mine second) {group : Group}
    (own : mine group.id) (pcName : String) :
    first.existsByNameAndGroup pcName group = second.existsByNameAndGroup pcName group := by
  have inGroup (db : Database) : db.existsByNameAndGroup pcName group =
      (db.findByGroup group.id).any fun row => row.name = pcName := by
    rw [Database.existsByNameAndGroup, Database.findByGroup, List.any_filter]
    simp only [Bool.decide_and, Bool.and_comm]
  rw [inGroup, inGroup, alike.findByGroup own]

variable {repeaterId group : Long} {name accessPassword : String}

/-- The same row is new in both. -/
theorem exists_insertRemotePc (alike : first.Alike mine second)
    (sameKey : first.remotePc.nextKey = second.remotePc.nextKey)
    (free : ∀ row ∈ second.remotePc.rows, row.repeaterId < repeaterId) {written : Database}
    (inserted : first.insertRemotePc repeaterId name accessPassword group = .ok written) :
    ∃ other, second.insertRemotePc repeaterId name accessPassword group = .ok other ∧
      written.Alike mine other := by
  obtain ⟨keptName, keptPassword, named, secured, -, after, rfl, rows, -⟩ :=
    Database.insertRemotePc_eq_ok inserted
  obtain ⟨other, insertedToo⟩ :
      ∃ other, second.insertRemotePc repeaterId name accessPassword group = .ok other :=
    Database.exists_insertRemotePc (fun row member => Int.ne_of_lt (free row member)) named secured
  obtain ⟨_, _, namedToo, securedToo, -, next, rfl, others, -⟩ :=
    Database.insertRemotePc_eq_ok insertedToo
  cases named.symm.trans namedToo
  cases secured.symm.trans securedToo
  refine ⟨_, insertedToo, { alike with pcs := ?_ }⟩
  change after.rows.filter _ = next.rows.filter _
  rw [rows, others, List.filter_append, List.filter_append, sameKey]
  exact congrArg (· ++ _) alike.pcs

/-- The services register a PC alike when they give it the same numbers. -/
theorem registerRemotePcWith (alike : first.Alike mine second)
    {exception : ErrorCode → String → Exception} {notSelected : String}
    {registerRemotePcDto : RegisterRemotePcDto}
    (own : ∀ group, first.findByGroupName registerRemotePcDto.groupName = some group →
      mine group.id)
    (sameKey : first.remotePc.nextKey = second.remotePc.nextKey)
    (sameTop : RemotePcApiService.nextRepeaterId first.findTopByOrderByRepeaterIdDesc =
      RemotePcApiService.nextRepeaterId second.findTopByOrderByRepeaterIdDesc) :
    Together (Alike mine)
      (RemotePcApiService.registerRemotePcWith exception notSelected first registerRemotePcDto)
      (RemotePcApiService.registerRemotePcWith exception notSelected second
        registerRemotePcDto) := by
  unfold RemotePcApiService.registerRemotePcWith
  refine .after fun name _ => .after fun _ _ => .after fun password _ => .after fun _ _ =>
    .after fun groupName selected => .after fun _ _ => ?_
  rw [alike.findByGroupName]
  refine .after fun group found => ?_
  rw [orElseThrow_eq_ok] at selected found
  have ownGroup : mine group.id := by
    apply own group
    rw [alike.findByGroupName, selected, found]
  rw [alike.existsByNameAndGroup ownGroup]
  refine .after fun _ _ => .of_ok (fun written inserted => ?_) fun written inserted => ?_
  · rw [sameTop] at inserted
    exact alike.exists_insertRemotePc sameKey
      (fun row member => RemotePcApiService.lt_nextRepeaterId member) inserted
  · rw [← sameTop] at inserted
    obtain ⟨other, insertedToo, -⟩ := alike.symm.exists_insertRemotePc sameKey.symm
      (fun row member => RemotePcApiService.lt_nextRepeaterId member) inserted
    exact ⟨other, insertedToo⟩

/-! ### Deletions of PCs -/

/-- An own PC is deleted on both sides or on neither. -/
theorem deletePc (alike : first.Alike mine second) (user : User)
    (present : remotePc ∈ first.remotePc.rows) (own : mine remotePc.group) :
    Together (fun deleted other => deleted.2.Alike mine other.2)
      (RemotePcService.deletePc first user remotePc.id)
      (RemotePcService.deletePc second user remotePc.id) := by
  have found : first.remotePc.findById remotePc.id = some remotePc :=
    Table.findById_eq_some.mpr ⟨present, rfl⟩
  have foundToo : second.remotePc.findById remotePc.id = some remotePc :=
    Table.findById_eq_some.mpr ⟨alike.mem own present, rfl⟩
  unfold RemotePcService.deletePc
  rw [found, foundToo, alike.findByUsername, alike.segment]
  refine .after fun row _ => .after fun _ _ => .after fun _ _ => .after fun member _ => ?_
  rw [alike.findByMemberAndGroup]
  exact .after fun _ _ => .after fun _ _ => alike.deleteRemotePcsWhere _

end Database.Alike

end MegaVnc
