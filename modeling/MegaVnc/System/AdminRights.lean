import Mathlib.Data.Set.Image
import MegaVnc.System.DomainIntegrity
import MegaVnc.Web.Controllers

/-! # Who changes users, groups and memberships

The pages of the administration are closed to everybody else, except that the
two bodies which create a user and a group are sent to ignored paths. Requests
without the administrator's role can therefore add to the directory, and take
nothing from it: the directory is the same after such requests exactly when none
of them creates anything.
-/

namespace MegaVnc

open Relational Fallible Application Transition

/-- A user apart from the password. -/
def Member.identity (member : Member) : Long × Option String × Role :=
  (member.id, member.username, member.role)

/-- The users with their roles, the groups, and the memberships. -/
def Database.directory (db : Database) :
    Set (Long × Option String × Role) × Set Group × Set MemberGroup :=
  (Member.identity '' {member | member ∈ db.member.rows}, {group | group ∈ db.segment.rows},
    {memberGroup | memberGroup ∈ db.memberGroup.rows})

/-- The registration of a user passes every check, and nobody has the username as the
column keeps it. -/
def UserRegisterDto.Accepted (user : UserRegisterDto) (db : Database) : Prop :=
  user.password ≠ none ∧ user.passwordConfirm = user.password ∧
    ∃ kept ∈ nullableVarchar user.username, db.findByUsername kept = none

instance (user : UserRegisterDto) (db : Database) : Decidable (user.Accepted db) :=
  inferInstanceAs (Decidable (_ ∧ _ ∧ _))

/-- The group can be created: no group has the name as the column keeps it. -/
def AcceptedGroup (db : Database) (groupName : Option String) : Prop :=
  ∃ kept ∈ nullableVarchar groupName, db.findByGroupName kept = none

instance (db : Database) (groupName : Option String) : Decidable (AcceptedGroup db groupName) :=
  inferInstanceAs (Decidable (∃ _ ∈ _, _))

/-- The request posts one of the two bodies, and what the body asks for is accepted. -/
def HttpRequest.Creates (request : HttpRequest) (db : Database) : Prop :=
  request.method = .post ∧ ∃ body ∈ request.body,
    request.path = ["api", "users", "regist"] ∧ body.userRegisterDto.Accepted db ∨
      request.path = ["api", "groups", "create"] ∧ AcceptedGroup db (body.lookup "groupName")

instance (request : HttpRequest) (db : Database) : Decidable (request.Creates db) :=
  inferInstanceAs (Decidable (_ ∧ _))

variable {environment : Environment} {world : World} {operation : Operation}
  {db next : Database} {conversion : Conversion} {exchange : Exchange}

/-! ### The two services that create -/

/-- Where the kept username is free, so is the one that is sent: a stored username is
kept as it is. -/
theorem findByUsername_of_kept {username kept : Option String}
    (keeps : nullableVarchar username = some kept) (new : db.findByUsername kept = none) :
    db.findByUsername username = none := by
  refine List.find?_eq_none.mpr fun member present named => ?_
  obtain ⟨_, stored, -, storedFits, same⟩ :=
    fit_member_eq_some.mp (db.member.rows_fit member present)
  have asked : member.username = username := of_decide_eq_true named
  have sameKept : stored = kept := Option.some.inj (storedFits.symm.trans (asked ▸ keeps))
  have asKept : member.username = kept := (congrArg Member.username same).trans sameKept
  exact List.find?_eq_none.mp new member present (decide_eq_true asKept)

/-- A name that no group has once it is kept is also not found as it was sent. -/
theorem findByGroupName_of_kept {groupName kept : Option String}
    (keeps : nullableVarchar groupName = some kept) (new : db.findByGroupName kept = none) :
    db.findByGroupName groupName = none := by
  refine List.find?_eq_none.mpr fun group present named => ?_
  obtain ⟨stored, storedFits, same⟩ :=
    fit_group_eq_some.mp (db.segment.rows_fit group present)
  have asked : group.groupName = groupName := of_decide_eq_true named
  have sameKept : stored = kept := Option.some.inj (storedFits.symm.trans (asked ▸ keeps))
  have asKept : group.groupName = kept := (congrArg Group.groupName same).trans sameKept
  exact List.find?_eq_none.mp new group present (decide_eq_true asKept)

/-- A registration of a user succeeds exactly when it is acceptable, where every hash fits
its column. -/
theorem AdminUserService.exists_register_iff {encode : String → String}
    (fits : ∀ password, varchar (encode password) = some (encode password))
    {user : UserRegisterDto} :
    (∃ next, AdminUserService.register encode db user = .ok next) ↔ user.Accepted db := by
  constructor
  · rintro ⟨next, registered⟩
    obtain ⟨kept, keeps, free, -⟩ := AdminUserService.register_eq_ok fits registered
    simp only [AdminUserService.register, bind_eq_ok, orElseThrow_eq_ok, throwIf_eq_ok]
      at registered
    obtain ⟨password, given, -, confirmed, -⟩ := registered
    exact ⟨given ▸ Option.some_ne_none _, given.symm ▸ (of_not_not confirmed).symm, kept, keeps,
      free⟩
  · rintro ⟨given, confirmed, kept, keeps, new⟩
    obtain ⟨password, sent⟩ := Option.ne_none_iff_exists'.mp given
    have stored : fit (Member.createMember encode user.username password .roleUser
        db.member.nextKey) =
        some (Member.createMember encode kept password .roleUser db.member.nextKey) :=
      fit_member_eq_some.mpr ⟨_, kept, fits password, keeps, rfl⟩
    have free : ∀ row ∈ db.member.rows, ¬ Clash row
        (Member.createMember encode kept password .roleUser db.member.nextKey) :=
      fun row present clash => List.find?_eq_none.mp new row present (decide_eq_true clash.2)
    obtain ⟨after, inserted⟩ : ∃ after, db.member.insert
        (Member.createMember encode user.username password .roleUser) (fun _ => rfl) = some after :=
      Table.insert_isSome stored free
    refine ⟨{ db with member := after }, ?_⟩
    simp only [AdminUserService.register, bind_eq_ok, orElseThrow_eq_ok, throwIf_eq_ok]
    exact ⟨password, sent, (), not_not.mpr (sent.symm.trans confirmed.symm), (),
      not_not.mpr (findByUsername_of_kept keeps new),
      Database.store_eq_ok.mpr ⟨after, inserted, rfl⟩⟩

/-- A group is created exactly when there is an administrator and the name is acceptable. -/
theorem AdminGroupService.exists_register_iff {groupName : Option String} {admin : Member}
    (found : db.findByRole .roleAdmin = .ok (some admin)) :
    (∃ next, AdminGroupService.register db groupName = .ok next) ↔ AcceptedGroup db groupName := by
  constructor
  · rintro ⟨next, registered⟩
    obtain ⟨kept, keeps, new, -⟩ := AdminGroupService.register_eq_ok registered
    exact ⟨kept, keeps, new⟩
  · rintro ⟨kept, keeps, new⟩
    have stored : fit (Group.createGroup groupName db.segment.nextKey) =
        some (Group.createGroup kept db.segment.nextKey) :=
      fit_group_eq_some.mpr ⟨kept, keeps, rfl⟩
    have free : ∀ row ∈ db.segment.rows, ¬ Clash row
        (Group.createGroup kept db.segment.nextKey) :=
      fun row present clash => List.find?_eq_none.mp new row present (decide_eq_true clash.2)
    obtain ⟨segment, inserted⟩ : ∃ segment, db.segment.insert (Group.createGroup groupName)
        (fun _ => rfl) = some segment := Table.insert_isSome stored free
    have unclashed : ∀ row ∈ db.memberGroup.rows, ¬ Clash row
        (MemberGroup.assignGroup admin.id db.segment.nextKey db.memberGroup.nextKey) :=
      fun row present clash => clash.1 rfl
    obtain ⟨memberGroup, joined⟩ : ∃ memberGroup, db.memberGroup.insert
        (MemberGroup.assignGroup admin.id db.segment.nextKey) (fun _ => rfl) = some memberGroup :=
      Table.insert_isSome rfl unclashed
    refine ⟨{ db with segment := segment, memberGroup := memberGroup }, ?_⟩
    simp only [AdminGroupService.register, bind_eq_ok, orElseThrow_eq_ok, throwIf_eq_ok]
    have free := findByGroupName_of_kept keeps new
    refine ⟨(), ?_, (), not_not.mpr free, _, found, admin, rfl, { db with segment := segment }, ?_,
      ?_⟩
    · rw [free]
      exact Bool.false_ne_true
    · exact Database.store_eq_ok.mpr ⟨segment, inserted, rfl⟩
    · exact Database.store_eq_ok.mpr ⟨memberGroup, joined, rfl⟩

/-! ### The directory before and after -/

/-- A row under the next key is new to the directory. -/
theorem directory_ne_of_member {new : Member} (named : new.id = db.member.nextKey)
    (added : new ∈ next.member.rows) : next.directory ≠ db.directory := by
  intro same
  have listed : new.identity ∈ next.directory.1 := ⟨new, added, rfl⟩
  rw [same] at listed
  obtain ⟨old, present, identity⟩ := listed
  have earlier : old.id < db.member.nextKey := db.member.keys_below old present
  have sameId : old.id = new.id := congrArg Prod.fst identity
  rw [sameId, named] at earlier
  exact lt_irrefl _ earlier

/-- A new group changes the directory. -/
theorem directory_ne_of_segment {new : Group} (named : new.id = db.segment.nextKey)
    (added : new ∈ next.segment.rows) : next.directory ≠ db.directory := by
  intro same
  have listed : new ∈ next.directory.2.1 := added
  rw [same] at listed
  have earlier : new.id < db.segment.nextKey := db.segment.keys_below new listed
  rw [named] at earlier
  exact lt_irrefl _ earlier

/-- The directory only grows when each of its three tables does. -/
theorem directory_le (member : db.member.rows ⊆ next.member.rows)
    (segment : db.segment.rows ⊆ next.segment.rows)
    (memberGroup : db.memberGroup.rows ⊆ next.memberGroup.rows) :
    db.directory ≤ next.directory :=
  ⟨Set.image_mono fun _ present => member present, fun _ present => segment present,
    fun _ present => memberGroup present⟩

/-- A registration makes the directory grow exactly when it is accepted. -/
theorem transact_directory {service : Except Exception Database} {accepted : Prop}
    (accepts : (∃ next, service = .ok next) ↔ accepted)
    (grows : ∀ next, service = .ok next → world.db.directory ≤ next.directory ∧
      next.directory ≠ world.db.directory) :
    world.db.directory ≤ (transact world do
      let db ← service
      pure (.done, db)).2.db.directory ∧
      ((transact world do
        let db ← service
        pure (.done, db)).2.db.directory = world.db.directory ↔ ¬ accepted) := by
  cases service with
  | error exception =>
      refine ⟨le_refl _, iff_of_true rfl fun admitted => ?_⟩
      obtain ⟨next, registered⟩ := accepts.mpr admitted
      cases registered
  | ok next =>
      obtain ⟨grown, differs⟩ := grows next rfl
      exact ⟨grown, iff_of_false differs (not_not.mpr (accepts.mp ⟨next, rfl⟩))⟩

/-- The directory grows by what a registration creates, if it is accepted. -/
theorem createUser_directory {user : UserRegisterDto} :
    world.db.directory ≤ (step environment world (.createUser user)).db.directory ∧
      ((step environment world (.createUser user)).db.directory = world.db.directory ↔
        ¬ user.Accepted world.db) := by
  refine transact_directory (AdminUserService.exists_register_iff environment.encodePassword_fits)
    fun next registered => ?_
  obtain ⟨kept, -, -, password, after, rfl, rows, -⟩ :=
    AdminUserService.register_eq_ok environment.encodePassword_fits registered
  have added : Member.createMember environment.encodePassword kept password .roleUser
      world.db.member.nextKey ∈ after.rows :=
    rows ▸ List.mem_append_right _ (List.mem_singleton_self _)
  refine ⟨directory_le ?_ (List.Subset.refl _) (List.Subset.refl _),
    directory_ne_of_member rfl added⟩
  exact rows ▸ List.subset_append_left _ _

/-- Creating a group lets the directory grow, and leaves it alone exactly when the name is
refused. -/
theorem createGroup_directory (alone : AdminAlone world.db) {groupName : Option String} :
    world.db.directory ≤ (step environment world (.createGroup groupName)).db.directory ∧
      ((step environment world (.createGroup groupName)).db.directory = world.db.directory ↔
        ¬ AcceptedGroup world.db groupName) := by
  obtain ⟨admin, found⟩ := alone.found
  refine transact_directory (AdminGroupService.exists_register_iff found) fun next registered => ?_
  obtain ⟨kept, -, -, _, -, segment, memberGroup, rfl, segmentRows, -, memberGroupRows⟩ :=
    AdminGroupService.register_eq_ok registered
  have added : Group.createGroup kept world.db.segment.nextKey ∈ segment.rows :=
    segmentRows ▸ List.mem_append_right _ (List.mem_singleton_self _)
  refine ⟨directory_le (List.Subset.refl _) ?_ ?_, directory_ne_of_segment rfl added⟩
  · exact segmentRows ▸ List.subset_append_left _ _
  · exact memberGroupRows ▸ List.subset_append_left _ _

/-- The operation can change the directory. -/
def Operation.isAdministration : Operation → Bool
  | .createGroup _ | .deleteGroup _ | .createUser _ | .deleteUser _ | .assignGroup _
  | .disassignGroup _ _ | .dataLoader _ => true
  | _ => false

/-- A change of password leaves who the users are. -/
theorem directory_of_not_administration (other : operation.isAdministration = false) :
    (step environment world operation).db.directory = world.db.directory := by
  have kept {db next : Database}
      (segment : next.segment.rows = db.segment.rows)
      (member : next.member.rows.map Member.identity = db.member.rows.map Member.identity)
      (memberGroup : next.memberGroup.rows = db.memberGroup.rows) :
      next.directory = db.directory := by
    have image (rows : List Member) : Member.identity '' {member | member ∈ rows} =
        {identity | identity ∈ rows.map Member.identity} := by
      ext identity
      simp only [Set.mem_image, Set.mem_ofPred_eq, List.mem_map]
    rw [Database.directory, Database.directory, segment, memberGroup, image, image, member]
  cases step_directoryEffect environment world operation with
  | kept segment member memberGroup => exact kept segment (congrArg _ member) memberGroup
  | groupCreated keeps new found segment member memberGroup => cases other
  | groupDeleted spared segment member memberGroup => cases other
  | userRegistered keeps new segment member memberGroup => cases other
  | userDeleted present named plain segment member memberGroup => cases other
  | assigned assigneeIn groupIn new segment member memberGroup => cases other
  | disassigned segment member memberGroup => cases other
  | started segment member memberGroup => cases other
  | @passwordChanged _ _ newPassword _ old oldIn segment member memberGroup =>
      refine kept segment ?_ memberGroup
      rw [member, Table.map_replace Member.identity
        (old.changePassword environment.encodePassword newPassword) oldIn rfl rfl]

/-! ### The operations requests lead to -/

/-- The methods behind the pages of the administration. -/
def Handler.isAdmin : Handler → Bool
  | .deleteGroup | .deleteUser | .assignGroup | .disassignGroup => true
  | _ => false

/-- A request is led to the handler of a mapping that takes its method and whose pattern
matches its path. -/
theorem dispatch_eq_some {request : HttpRequest} {handler : Handler} {texts : List String}
    (dispatched : dispatch request = some (handler, texts)) :
    ∃ mapping ∈ mappings, mapping.handler = handler ∧ mapping.takes request.method = true ∧
      capture mapping.pattern request.path = some texts := by
  obtain ⟨mapping, member, taken⟩ := List.exists_of_findSome?_eq_some dispatched
  split at taken
  · next takes =>
      obtain ⟨_, captured, same⟩ := Option.map_eq_some_iff.mp taken
      cases same
      exact ⟨mapping, member, rfl, takes, captured⟩
  · cases taken

/-- A pattern that begins with a literal only matches paths that begin with that text. -/
theorem capture_literal {text : String} {pattern : List Segment} {path texts : List String}
    (captured : capture (.literal text :: pattern) path = some texts) :
    ∃ rest, path = text :: rest ∧ capture pattern rest = some texts := by
  cases path with
  | nil => cases captured
  | cons segment rest =>
      unfold capture at captured
      split at captured
      · next same => exact ⟨rest, congrArg (· :: rest) same, captured⟩
      · cases captured

/-- A request without the role never gets to the pages of the administration. -/
theorem not_admits_of_isAdmin {request : HttpRequest} {handler : Handler} {texts : List String}
    (dispatched : dispatch request = some (handler, texts)) (admin : handler.isAdmin = true)
    (unprivileged : request.Unprivileged) : SecurityConfig.admits request = false := by
  obtain ⟨mapping, member, rfl, -, captured⟩ := dispatch_eq_some dispatched
  have below : ∀ mapping ∈ mappings, mapping.handler.isAdmin = true →
      mapping.pattern.head? = some (.literal "admin") := by decide
  obtain ⟨pattern, split⟩ := List.head?_eq_some_iff.mp (below mapping member admin)
  rw [split] at captured
  obtain ⟨rest, path, -⟩ := capture_literal captured
  exact SecurityConfig.not_admits_admin path unprivileged

/-- The two methods that create take `POST` on one path each. -/
theorem path_of_creates {request : HttpRequest} {handler : Handler} {texts : List String}
    (dispatched : dispatch request = some (handler, texts)) {pattern : List String}
    (mapped : ∀ mapping ∈ mappings, mapping.handler = handler →
      mapping.method = some .post ∧ mapping.pattern = pattern.map .literal) :
    request.method = .post ∧ request.path = pattern := by
  obtain ⟨mapping, member, named, takes, captured⟩ := dispatch_eq_some dispatched
  obtain ⟨method, literal⟩ := mapped mapping member named
  constructor
  · rw [Mapping.takes, method] at takes
    simpa [eq_comm] using takes
  · rw [literal] at captured
    have exact (pattern : List String) : ∀ path texts,
        capture (pattern.map .literal) path = some texts → path = pattern := by
      induction pattern with
      | nil =>
          intro path texts captured
          cases path with
          | nil => rfl
          | cons segment rest => cases captured
      | cons text rest ih =>
          intro path texts captured
          obtain ⟨later, rfl, further⟩ := capture_literal captured
          rw [ih later texts further]
    exact exact pattern request.path texts captured

/-- An administration operation comes from a handler of the administrator, or from one of
the two that read a JSON body. -/
theorem Handler.operation_administration {request : HttpRequest} {circumstances : Circumstances}
    {handler : Handler} {texts : List String}
    (leads : handler.operation conversion request circumstances texts = some operation)
    (administers : operation.isAdministration = true) :
    handler.isAdmin = true ∨
      ∃ body ∈ request.body,
        handler = .createUser ∧ operation = .createUser body.userRegisterDto ∨
        handler = .createGroup ∧ operation = .createGroup (body.lookup "groupName") := by
  cases handler with
  | deleteGroup => exact Or.inl rfl
  | deleteUser => exact Or.inl rfl
  | assignGroup => exact Or.inl rfl
  | disassignGroup => exact Or.inl rfl
  | createUser =>
      obtain ⟨body, sent, same⟩ := Option.bind_eq_some_iff.mp leads
      exact Or.inr ⟨body, sent, Or.inl ⟨rfl, (Option.some.inj same).symm⟩⟩
  | createGroup =>
      obtain ⟨body, sent, same⟩ := Option.bind_eq_some_iff.mp leads
      exact Or.inr ⟨body, sent, Or.inr ⟨rfl, (Option.some.inj same).symm⟩⟩
  | home | downloadServer | findAllGroups | management | upload | showGroups | showUsers
  | showAssignGroups | logs | connectLog | errorLog | showChangePassword | showLogin => cases leads
  | _ =>
      simp only [Handler.operation, Option.bind_eq_bind, Option.bind_eq_some_iff, Option.pure_def,
        Option.some.injEq] at leads
      grind [Operation.isAdministration]

/-- A post to the path of the users' registration creates the user of its body, if it has
one. -/
theorem Exchange.operation_createUser (method : exchange.request.method = .post)
    (path : exchange.request.path = ["api", "users", "regist"]) :
    exchange.operation conversion =
      exchange.request.body.map fun body => .createUser body.userRegisterDto := by
  obtain ⟨⟨_, _, user, parameters, body, file⟩, circumstances⟩ := exchange
  obtain rfl : _ = HttpMethod.post := method
  obtain rfl : _ = ["api", "users", "regist"] := path
  cases body <;> rfl

/-- A post to the path of the groups' creation creates the group its body names, if it has
one. -/
theorem Exchange.operation_createGroup (method : exchange.request.method = .post)
    (path : exchange.request.path = ["api", "groups", "create"]) :
    exchange.operation conversion =
      exchange.request.body.map fun body => .createGroup (body.lookup "groupName") := by
  obtain ⟨⟨_, _, user, parameters, body, file⟩, circumstances⟩ := exchange
  obtain rfl : _ = HttpMethod.post := method
  obtain rfl : _ = ["api", "groups", "create"] := path
  cases body <;> rfl

/-- Without the role, a request leads to no administration but the two that
create. -/
theorem Exchange.operation_of_unprivileged (unprivileged : exchange.request.Unprivileged)
    (leads : exchange.operation conversion = some operation)
    (administers : operation.isAdministration = true) :
    exchange.request.method = .post ∧ ∃ body ∈ exchange.request.body,
      exchange.request.path = ["api", "users", "regist"] ∧
          operation = .createUser body.userRegisterDto ∨
        exchange.request.path = ["api", "groups", "create"] ∧
          operation = .createGroup (body.lookup "groupName") := by
  unfold Exchange.operation at leads
  split at leads
  · next admitted =>
      obtain ⟨⟨handler, texts⟩, dispatched, leads⟩ := Option.bind_eq_some_iff.mp leads
      rcases handler.operation_administration leads administers with
        admin | ⟨body, sent, ⟨rfl, same⟩ | ⟨rfl, same⟩⟩
      · rw [not_admits_of_isAdmin dispatched admin unprivileged] at admitted
        cases admitted
      · obtain ⟨method, path⟩ := path_of_creates dispatched
          (show ∀ mapping ∈ mappings, mapping.handler = .createUser → mapping.method = some .post ∧
            mapping.pattern = ["api", "users", "regist"].map .literal by decide)
        exact ⟨method, body, sent, Or.inl ⟨path, same⟩⟩
      · obtain ⟨method, path⟩ := path_of_creates dispatched
          (show ∀ mapping ∈ mappings, mapping.handler = .createGroup → mapping.method = some .post ∧
            mapping.pattern = ["api", "groups", "create"].map .literal by decide)
        exact ⟨method, body, sent, Or.inr ⟨path, same⟩⟩
  · cases leads

/-! ### Runs of requests -/

/-- A request without the role grows the directory when it creates something,
and keeps it otherwise. -/
theorem serve_directory (alone : AdminAlone world.db)
    (unprivileged : exchange.request.Unprivileged) :
    world.db.directory ≤ (serve environment conversion world exchange).db.directory ∧
      ((serve environment conversion world exchange).db.directory = world.db.directory ↔
        ¬ exchange.request.Creates world.db) := by
  have kept (same : (serve environment conversion world exchange).db.directory =
      world.db.directory) (idle : ¬ exchange.request.Creates world.db) :
      world.db.directory ≤ (serve environment conversion world exchange).db.directory ∧
        ((serve environment conversion world exchange).db.directory = world.db.directory ↔
          ¬ exchange.request.Creates world.db) :=
    ⟨le_of_eq same.symm, iff_of_true same idle⟩
  cases leads : exchange.operation conversion with
  | none =>
      refine kept (by rw [serve, leads]) ?_
      rintro ⟨method, body, sent, ⟨path, -⟩ | ⟨path, -⟩⟩
      · rw [Exchange.operation_createUser method path, sent] at leads
        cases leads
      · rw [Exchange.operation_createGroup method path, sent] at leads
        cases leads
  | some operation =>
      have served : serve environment conversion world exchange =
          step environment world operation := by
        rw [serve, leads]
      by_cases administers : operation.isAdministration = true
      · obtain ⟨method, body, sent, ⟨path, rfl⟩ | ⟨path, rfl⟩⟩ :=
          Exchange.operation_of_unprivileged unprivileged leads administers
        · rw [served, HttpRequest.Creates, Option.mem_def.mp sent]
          simpa [method, path] using createUser_directory
        · rw [served, HttpRequest.Creates, Option.mem_def.mp sent]
          simpa [method, path] using createGroup_directory alone
      · refine kept ?_ ?_
        · rw [served, directory_of_not_administration (Bool.eq_false_iff.mpr administers)]
        · rintro ⟨method, body, sent, ⟨path, -⟩ | ⟨path, -⟩⟩
          · rw [Exchange.operation_createUser method path, sent] at leads
            exact administers (Option.some.inj leads ▸ rfl)
          · rw [Exchange.operation_createGroup method path, sent] at leads
            exact administers (Option.some.inj leads ▸ rfl)

/-- Serving a request keeps the state reachable. -/
theorem Application.Reachable.serve (reached : Application.Reachable environment world) :
    Application.Reachable environment (serve environment conversion world exchange) := by
  unfold MegaVnc.serve
  split
  · next operation leads => exact reached.run [operation]
  · exact reached

/-- Decimal numbers within the bounds of the two types. -/
def decimals : Conversion where
  toLong text := Text.parseWithin (-2 ^ 63) (2 ^ 63 - 1) text.toList
  toInteger text := Text.parseWithin (-2 ^ 31) (2 ^ 31 - 1) text.toList

/-- The circumstances of a request where nothing fails. -/
def calm : Circumstances where
  now := 1704067200000
  uploadFault := none
  streamFault := none
  deleteFails := none

/-- A request without a session, with a JSON object in its body. -/
def anonymous (method : HttpMethod) (path : List String) (body : RequestBody) : Exchange where
  request :=
    { method := method, path := path, user := none, parameters := [], body := some body
      file := none }
  circumstances := calm

end MegaVnc
