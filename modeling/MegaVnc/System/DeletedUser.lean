import MegaVnc.System.PcViews
import MegaVnc.System.Sessions

/-! # The sessions of a deleted user

A session goes on when its user is deleted. An upload looks no member up, so it
still reaches the client of any PC. The other requests look the member up by the
username, and act for whoever was registered under it since.
-/

namespace MegaVnc

open Relational Fallible Transition
open Application (perform transact showRemotePcs showViewer)
open FileService (uploadFile uploadFile_stored uploadFile_cases)
open RemotePcService (allGroup sortById deletePc)

/-- The request shows no stored PC, deletes none, and stores no file. -/
structure LockedOut (environment : Environment) (world : World) (operation : Operation) : Prop where
  silent : ∀ reply, (perform environment world operation).1 = .ok reply →
    ∀ remotePc ∈ world.db.remotePc.rows, ¬ reply.Tells remotePc
  pcs : (Application.step environment world operation).db.remotePc.rows = world.db.remotePc.rows
  files : (Application.step environment world operation).db.fileInfo.rows =
    world.db.fileInfo.rows

/-- For the member, the request lists, opens or deletes the PC. -/
def SessionRequest.Reaches (db : Database) (member : Member) (remotePc : RemotePc) :
    SessionRequest → Prop
  | .showRemotePcs selectedGroupName => member.In db remotePc.group ∧
      (SelectsAll selectedGroupName ∨ ∃ group ∈ db.segment.rows,
        group.groupName = selectedGroupName ∧ group.id = remotePc.group)
  | .showViewer id => remotePc.id = id ∧ remotePc.status ≠ .offline ∧ member.In db remotePc.group
  | .deleteRemotePc id => remotePc.id = id ∧ remotePc.status ≠ .active ∧ id ≠ 1 ∧
      member.In db remotePc.group
  | .uploadFile _ _ _ _ | .processChangePassword _ => False

variable {environment : Environment} {world : World} {db : Database} {user : User}
  {member : Member} {remotePc : RemotePc} {operation : Operation}

/-! ### The list -/

/-- What the list is: of all groups of the member, or of one. -/
theorem showRemotePcs_eq_ok {selectedGroupName : Option String} {reply : Reply}
    (shown : showRemotePcs db user selectedGroupName = .ok reply) :
    ∃ member, db.findByUsername user.username = some member ∧
      (SelectsAll selectedGroupName ∧
          reply = .remotePcs (groupsOf db member) (pcsOfMember db member) ∨
        ∃ group ∈ db.segment.rows, group.groupName = selectedGroupName ∧
          ¬ SelectsAll group.groupName ∧ member.In db group.id) := by
  obtain ⟨groups, found, answered⟩ := bind_eq_ok.mp shown
  simp only [RemotePcService.findGroupByMember, bind_eq_ok, orElseThrow_eq_ok] at found
  obtain ⟨member, known, -⟩ := found
  refine ⟨member, known, ?_⟩
  by_cases all : SelectsAll selectedGroupName
  · rw [showRemotePcs_of_selectsAll known all] at shown
    exact Or.inl ⟨all, (Except.ok.inj shown).symm⟩
  · cases selectedGroupName with
    | none => exact (all (Or.inl rfl)).elim
    | some groupName =>
        have other : groupName ≠ allGroup := fun same => all (Or.inr (congrArg some same))
        simp only [other, ↓reduceIte, RemotePcService.findByGroupName, known, bind_eq_ok,
          orElseThrow_eq_ok, throwIf_eq_ok, Option.some.injEq] at answered
        obtain ⟨_, ⟨group, named, _, rfl, -, own, -⟩, -⟩ := answered
        have same : group.groupName = some groupName := by simpa using List.find?_some named
        exact Or.inr ⟨group, List.mem_of_find?_eq_some named, same, same ▸ all,
          findByMemberAndGroup_ne_nil.mp own⟩

theorem ofRemotePc_tells {groups : List Group} {remotePcs : List ResponseRemotePcDto}
    (listed : .ofRemotePc remotePc ∈ remotePcs) :
    (Reply.remotePcs groups remotePcs).Tells remotePc :=
  ⟨.ofRemotePc remotePc, listed, rfl⟩

/-- A list shows a PC exactly when the member named by the session reaches it. -/
theorem showRemotePcs_tells_iff (intact : Intact db) (present : remotePc ∈ db.remotePc.rows)
    {selectedGroupName : Option String} :
    (∃ reply, showRemotePcs db user selectedGroupName = .ok reply ∧ reply.Tells remotePc) ↔
      ∃ member, db.findByUsername user.username = some member ∧
        (SessionRequest.showRemotePcs selectedGroupName).Reaches db member remotePc := by
  have isIt {other : RemotePc} (otherIn : other ∈ db.remotePc.rows) {id : Long}
      (named : id = remotePc.id) (same : (ResponseRemotePcDto.ofRemotePc other).id = id) :
      other = remotePc := Table.eq_of_key_eq otherIn present (same.trans named)
  constructor
  · rintro ⟨reply, shown, tells⟩
    obtain ⟨member, known, ⟨all, rfl⟩ | ⟨group, stored, named, one, mine⟩⟩ :=
      showRemotePcs_eq_ok shown
    · obtain ⟨response, listed, identified⟩ := tells
      obtain ⟨other, otherIn, mine, same⟩ := (mem_pcsOfMember intact.referring.pcGroups).mp listed
      obtain rfl := isIt otherIn identified (congrArg ResponseRemotePcDto.id same)
      exact ⟨member, known, mine, Or.inl all⟩
    · rw [← named, showRemotePcs_of_own known intact.groupNamesApart stored mine one] at shown
      cases shown
      obtain ⟨response, listed, identified⟩ := tells
      obtain ⟨other, otherIn, grouped, same⟩ := mem_findByGroup (mem_sortById.mp listed)
      obtain rfl := isIt otherIn identified same.symm
      exact ⟨member, known, grouped ▸ mine, Or.inr ⟨group, stored, named, grouped.symm⟩⟩
  · rintro ⟨member, known, mine, covers⟩
    by_cases all : SelectsAll selectedGroupName
    · exact ⟨_, showRemotePcs_of_selectsAll known all,
        ofRemotePc_tells ((mem_pcsOfMember intact.referring.pcGroups).mpr
          ⟨remotePc, present, mine, rfl⟩)⟩
    · obtain ⟨group, stored, rfl, named⟩ := covers.resolve_left all
      refine ⟨_, showRemotePcs_of_own known intact.groupNamesApart stored (named ▸ mine) all,
        ofRemotePc_tells (mem_sortById.mpr (List.mem_map.mpr ⟨remotePc, ?_, rfl⟩))⟩
      exact List.mem_filter.mpr ⟨present, decide_eq_true named.symm⟩

/-! ### The viewer and the deletion -/

/-- The viewer page tells of a PC exactly to a known member who can reach it. -/
theorem showViewer_tells_iff (present : remotePc ∈ db.remotePc.rows) {id : Long} :
    (∃ reply, showViewer db user id = .ok reply ∧ reply.Tells remotePc) ↔
      ∃ member, db.findByUsername user.username = some member ∧
        (SessionRequest.showViewer id).Reaches db member remotePc := by
  constructor
  · rintro ⟨reply, shown, tells⟩
    simp only [showViewer, bind_eq_ok, pure_eq_ok] at shown
    obtain ⟨other, opened, rfl⟩ := shown
    have knows := opened
    simp only [RemotePcService.findById, bind_eq_ok, orElseThrow_eq_ok] at knows
    obtain ⟨-, -, -, -, member, known, -⟩ := knows
    obtain ⟨otherIn, named, running, mine⟩ := (findById_eq_ok known).mp opened
    have isIt : other = remotePc := Table.eq_of_clash otherIn present (clash_remotePc.mpr tells)
    subst isIt
    exact ⟨member, known, named, running, mine⟩
  · rintro ⟨member, known, named, running, mine⟩
    have opened := (findById_eq_ok known).mpr ⟨present, named, running, mine⟩
    refine ⟨.viewer remotePc.status remotePc.repeaterId remotePc.name remotePc.accessPassword, ?_,
      rfl⟩
    simp only [showViewer, opened, ok_bind]
    rfl

/-- A PC is deleted exactly for a known member who can reach one with the id. -/
theorem deletePc_isOk_iff (referring : ∀ remotePc ∈ db.remotePc.rows, ∃ group ∈ db.segment.rows,
      group.id = remotePc.group) {id : Long} :
    (∃ groupName next, deletePc db user id = .ok (groupName, next)) ↔
      ∃ member, db.findByUsername user.username = some member ∧ ∃ remotePc ∈ db.remotePc.rows,
        (SessionRequest.deleteRemotePc id).Reaches db member remotePc := by
  constructor
  · rintro ⟨groupName, next, deleted⟩
    obtain ⟨⟨remotePc, member, found, idle, other, known, own⟩, -⟩ :=
      RemotePcService.deletePc_eq_ok deleted
    obtain ⟨present, named⟩ := Table.findById_eq_some.mp found
    exact ⟨member, known, remotePc, present, named, idle, other,
      findByMemberAndGroup_ne_nil.mp own⟩
  · rintro ⟨member, known, remotePc, present, rfl, idle, other, mine⟩
    obtain ⟨group, stored, named⟩ := referring remotePc present
    refine ⟨group.groupName, db.deleteRemotePcsWhere fun row => row.id = remotePc.id, ?_⟩
    simp only [deletePc, bind_eq_ok, orElseThrow_eq_ok, throwIf_eq_ok, pure_eq_ok]
    exact ⟨remotePc, Table.findById_eq_some.mpr ⟨present, rfl⟩, (), idle, (), other, member, known,
      (), findByMemberAndGroup_ne_nil.mpr mine, group,
      Table.findById_eq_some.mpr ⟨stored, named⟩, rfl⟩

/-! ### The requests of a session -/

/-- A request that only reads is locked out when its answer tells of no PC. -/
theorem lockedOut_read_iff {service : Except Exception Reply}
    (performs : perform environment world operation = transact world do
      let reply ← service
      pure (reply, world.db)) :
    LockedOut environment world operation ↔ ∀ remotePc ∈ world.db.remotePc.rows,
      ¬ ∃ reply, service = .ok reply ∧ reply.Tells remotePc := by
  have outcome : (perform environment world operation).1 = service := by
    rw [performs]
    cases service <;> rfl
  have unchanged : (Application.step environment world operation).db = world.db := by
    rw [Application.step, performs]
    cases service <;> rfl
  constructor
  · rintro lockedOut remotePc present ⟨reply, answered, tells⟩
    exact lockedOut.silent reply (outcome.trans answered) remotePc present tells
  · intro silent
    refine ⟨fun reply answered remotePc present tells => ?_, ?_, ?_⟩
    · exact silent remotePc present ⟨reply, outcome.symm.trans answered, tells⟩
    · rw [unchanged]
    · rw [unchanged]

/-- Nothing is told of any PC when the member of the username reaches none. -/
theorem silent_iff {request : SessionRequest} {tells : RemotePc → Prop}
    (told : ∀ remotePc ∈ db.remotePc.rows, (tells remotePc ↔
      ∃ member, db.findByUsername user.username = some member ∧
        request.Reaches db member remotePc)) :
    (∀ remotePc ∈ db.remotePc.rows, ¬ tells remotePc) ↔
      ∀ member, db.findByUsername user.username = some member →
        ∀ remotePc ∈ db.remotePc.rows, ¬ request.Reaches db member remotePc := by
  constructor
  · intro silent member known remotePc present reaches
    exact silent remotePc present ((told remotePc present).mpr ⟨member, known, reaches⟩)
  · intro out remotePc present tells
    obtain ⟨member, known, reaches⟩ := (told remotePc present).mp tells
    exact out member known remotePc present reaches

/-- Deleting is refused where the service refuses it. -/
theorem lockedOut_deleteRemotePc_iff {id : Long} :
    LockedOut environment world (.deleteRemotePc user id) ↔
      ¬ ∃ groupName next, deletePc world.db user id = .ok (groupName, next) := by
  cases deleted : deletePc world.db user id with
  | error exception =>
      have performs : perform environment world (.deleteRemotePc user id) =
          (.error exception, world) := by
        simp only [perform, deleted, error_bind, transact]
      refine iff_of_true ⟨fun reply answered => ?_, ?_, ?_⟩ ?_
      · rw [performs] at answered
        cases answered
      · rw [Application.step, performs]
      · rw [Application.step, performs]
      · rintro ⟨groupName, next, returned⟩
        cases returned
  | ok result =>
      obtain ⟨groupName, next⟩ := result
      refine iff_of_false (fun lockedOut => ?_) (not_not.mpr ⟨groupName, next, rfl⟩)
      have answered : (perform environment world (.deleteRemotePc user id)).1 =
          .ok (.deleted groupName) := by
        simp only [perform, deleted, ok_bind]
        rfl
      obtain ⟨⟨remotePc, -, found, -⟩, -⟩ := RemotePcService.deletePc_eq_ok deleted
      exact lockedOut.silent _ answered remotePc (Table.findById_eq_some.mp found).1 trivial

/-- An upload is refused where it would leave no file for anyone. -/
theorem lockedOut_uploadFile_iff {now : Date} {file : MultipartFile} {repeaterId : Option Long}
    {fault : Option UploadFault} :
    LockedOut environment world (.uploadFile now file repeaterId user fault) ↔
      ∀ recipient, ¬ Operation.UploadsFor environment world recipient
        (.uploadFile now file repeaterId user fault) := by
  constructor
  · rintro lockedOut recipient ⟨meant, encrypted, storable⟩
    obtain ⟨after, disk, stored, rows, -⟩ :=
      uploadFile_stored (uploadReconnectId_eq_ok.mpr ⟨recipient, meant, rfl⟩) storable
    have files := lockedOut.files
    change (uploadFile environment world now file repeaterId user fault).2.db.fileInfo.rows = _
      at files
    rw [stored, rows] at files
    exact List.cons_ne_nil _ _ (List.append_right_eq_self.mp files)
  · intro unstored
    rcases uploadFile_cases environment world now file repeaterId user fault with
      ⟨exception, disk, refused, -⟩ | ⟨reconnectId, encrypted, addressed, storable⟩
    · have performs : perform environment world (.uploadFile now file repeaterId user fault) =
          (.error exception, { world with disk := disk }) := by
        simp only [perform, refused]
        rfl
      refine ⟨fun reply answered => ?_, ?_, ?_⟩
      · rw [performs] at answered
        cases answered
      · rw [Application.step, performs]
      · rw [Application.step, performs]
    · obtain ⟨recipient, meant, rfl⟩ := uploadReconnectId_eq_ok.mp addressed
      exact (unstored recipient ⟨meant, encrypted, storable⟩).elim

/-- A change of the password never shows or gives away a PC. -/
theorem lockedOut_processChangePassword {changePassword : ChangePasswordDto} :
    LockedOut environment world (.processChangePassword changePassword user) := by
  have pcs : (Application.step environment world
      (.processChangePassword changePassword user)).db.remotePc = world.db.remotePc :=
    @step_same environment world _ .remotePc (by simp [Operation.writes])
  have files : (Application.step environment world
      (.processChangePassword changePassword user)).db.fileInfo = world.db.fileInfo :=
    @step_same environment world _ .fileInfo (by simp [Operation.writes])
  refine ⟨fun reply answered remotePc _ tells => ?_, congrArg Table.rows pcs,
    congrArg Table.rows files⟩
  obtain ⟨db, ok, -⟩ := Application.transact_eq_ok.mp (Prod.ext answered rfl)
  obtain ⟨⟨view, written⟩, -, same⟩ := bind_eq_ok.mp ok
  cases same
  exact tells

/-- A request of a session is locked out exactly when it uploads no storable file
and reaches no PC for the member its username names. -/
theorem lockedOut_iff (intact : Intact world.db) (request : SessionRequest) :
    LockedOut environment world (request.operation user) ↔
      (∀ recipient, ¬ (request.operation user).UploadsFor environment world recipient) ∧
        ∀ member, world.db.findByUsername user.username = some member →
          ∀ remotePc ∈ world.db.remotePc.rows, ¬ request.Reaches world.db member remotePc := by
  cases request with
  | showRemotePcs selectedGroupName =>
      have silent := @silent_iff world.db user (.showRemotePcs selectedGroupName) _
        fun _ present => showRemotePcs_tells_iff intact present
      exact (lockedOut_read_iff rfl).trans
        (silent.trans ⟨fun out => ⟨fun _ => not_false, out⟩, And.right⟩)
  | showViewer id =>
      have silent := @silent_iff world.db user (.showViewer id) _
        fun _ present => showViewer_tells_iff present
      exact (lockedOut_read_iff rfl).trans
        (silent.trans ⟨fun out => ⟨fun _ => not_false, out⟩, And.right⟩)
  | deleteRemotePc id =>
      refine lockedOut_deleteRemotePc_iff.trans ?_
      rw [deletePc_isOk_iff intact.referring.pcGroups]
      constructor
      · intro silent
        exact ⟨fun _ => not_false, fun member known remotePc present reaches =>
          silent ⟨member, known, remotePc, present, reaches⟩⟩
      · rintro ⟨-, out⟩ ⟨member, known, remotePc, present, reaches⟩
        exact out member known remotePc present reaches
  | uploadFile now file repeaterId fault =>
      exact lockedOut_uploadFile_iff.trans
        ⟨fun unstored => ⟨unstored, fun _ _ _ _ => not_false⟩, And.left⟩
  | processChangePassword changePassword =>
      exact iff_of_true lockedOut_processChangePassword
        ⟨fun _ => not_false, fun _ _ _ _ => not_false⟩

/-! ### Runs after the deletion -/

namespace PortalAction

/-- A condition on the requests of the sessions that were logged in as a member. -/
def OnRequestOf (memberId : Long) (condition : Portal → User → SessionRequest → Prop)
    (portal : Portal) : PortalAction → Prop
  | .request number asked => ∀ session, portal.sessions[number]? = some session →
      session.member = memberId → condition portal session.user asked
  | _ => True

end PortalAction

open PortalAction (OnRequestOf)

/-- The request uploads no file the server can store, and reaches no PC for
another member that was registered under the username. -/
structure StaysOut (environment : Environment) (memberId : Long) (portal : Portal) (user : User)
    (request : SessionRequest) : Prop where
  stores : ∀ recipient,
    ¬ (request.operation user).UploadsFor environment portal.world recipient
  reaches : ∀ other ∈ portal.world.db.member.rows, other.id ≠ memberId →
    other.username = user.username → ∀ remotePc ∈ portal.world.db.remotePc.rows,
      ¬ request.Reaches portal.world.db other remotePc

/-- The id was given out, and its member is gone. -/
structure Gone (db : Database) (memberId : Long) : Prop where
  given : memberId < db.member.nextKey
  absent : ∀ member ∈ db.member.rows, member.id ≠ memberId

/-- A deleted id never comes back. -/
theorem Gone.step {memberId : Long} {portal : Portal} {action : PortalAction}
    (gone : Gone portal.world.db memberId) (reached : Portal.Reachable environment portal) :
    Gone (Portal.step environment portal action).world.db memberId := by
  rcases Portal.step_cases environment portal action with
    ⟨member, -, opened⟩ | ⟨-, same | ⟨operation, -, performed⟩⟩
  · rw [opened]
    exact gone
  · rw [same]
    exact gone
  · obtain ⟨grows, ids⟩ := Portal.step_ids reached.world operation
    rw [performed]
    refine ⟨Int.lt_of_lt_of_le gone.given grows, fun member present named => ?_⟩
    rcases ids member present with ⟨old, oldIn, sameId, -⟩ | new
    · exact gone.absent old oldIn (sameId.trans named)
    · exact absurd (named.symm.trans new) (Int.ne_of_lt gone.given)

/-- Deleting a user removes the row with the id and no other. -/
theorem deleteUser_member {memberId : Long} {reply : Reply}
    (committed : (perform environment world (.deleteUser memberId)).1 = .ok reply) :
    (∃ old ∈ world.db.member.rows, old.id = memberId) ∧
      (Application.step environment world (.deleteUser memberId)).db.member =
        world.db.member.deleteWhere fun member => member.id = memberId := by
  obtain ⟨db, ok, written⟩ := Application.transact_eq_ok.mp (Prod.ext committed rfl)
  obtain ⟨deleted, -⟩ := Application.done_eq_ok.mp ok
  obtain ⟨⟨old, present, named, -⟩, rfl⟩ := AdminUserService.deleteUser_eq_ok deleted
  have performed : Application.step environment world (.deleteUser memberId) = world.withDb _ :=
    written.symm
  rw [performed]
  exact ⟨⟨old, present, named⟩, rfl⟩

/-- Afterwards no row has the id, which is among those already given. -/
theorem deleteUser_gone {memberId : Long} {reply : Reply}
    (committed : (perform environment world (.deleteUser memberId)).1 = .ok reply) :
    Gone (Application.step environment world (.deleteUser memberId)).db memberId := by
  obtain ⟨⟨old, present, named⟩, member⟩ := deleteUser_member committed
  constructor
  · rw [member, ← named]
    exact world.db.member.keys_below old present
  · rw [member]
    exact fun other stays sameId => (Table.mem_deleteWhere.mp stays).2 sameId

/-- Once the member is gone, its sessions are named after others. -/
theorem staysOut_iff {memberId : Long} {portal : Portal} {request : SessionRequest}
    (reached : Portal.Reachable environment portal) (gone : Gone portal.world.db memberId) :
    LockedOut environment portal.world (request.operation user) ↔
      StaysOut environment memberId portal user request := by
  refine (lockedOut_iff reached.world.intact request).trans ⟨?_, ?_⟩
  · rintro ⟨unstored, out⟩
    refine ⟨unstored, fun other present _ sameName remotePc => out other ?_ remotePc⟩
    rw [← sameName]
    exact reached.world.usernamesApart.findByUsername present
  · intro stays
    refine ⟨stays.stores, fun member known => ?_⟩
    have present := List.mem_of_find?_eq_some known
    exact stays.reaches member present (gone.absent member present)
      (by simpa using List.find?_some known)

/-- The user is registered and logs in. -/
def kimLogsIn : List PortalAction :=
  [.operate (.createUser
      { username := some "kim", password := some "!mb220719"
        passwordConfirm := some "!mb220719" }) rfl,
    .login "kim" "!mb220719"]

end MegaVnc
