import MegaVnc.System.FilePrivacy

/-! # Membership and the web pages of a PC

The lists, the viewer and the deletion of a PC each check the membership of the
user in a form of its own. The upload of a file to a PC does not check it.
-/

namespace MegaVnc

open Relational Fallible Application Transition
open Mailbox (Recipient)
open FileService (adminRequest uploadFile uploadFile_stored uploadFile_cases)

/-- The user has no membership in the group of the PC. -/
def User.Outside (db : Database) (remotePc : RemotePc) (user : User) : Prop :=
  ∀ member, db.findByUsername user.username = some member →
    db.findByMemberAndGroup member remotePc.group = []

/-- A request of a user about the PC. -/
def Operation.WebRequest (user : User) (remotePc : RemotePc) : Operation → Prop
  | .showRemotePcs sender _ => sender = user
  | .showViewer sender id => sender = user ∧ id = remotePc.id
  | .deleteRemotePc sender id => sender = user ∧ id = remotePc.id
  | .uploadFile _ _ repeaterId sender _ => sender = user ∧ repeaterId = some remotePc.repeaterId
  | _ => False

/-- The page shows something of the PC. -/
def Reply.Tells (remotePc : RemotePc) : Reply → Prop
  | .remotePcs _ responses => ∃ response ∈ responses, response.id = remotePc.id
  | .viewer _ signalled _ _ => signalled = remotePc.repeaterId
  | .deleted _ => True
  | _ => False

/-- The files addressed to the client of the PC. -/
def World.filesFor (world : World) (remotePc : RemotePc) : List FileInfo :=
  world.db.fileInfo.rows.filter fun fileInfo => some fileInfo.reconnectId = remotePc.reconnectId

/-- The request fails or tells nothing of the PC, and changes neither the PCs
nor the files of its client. -/
structure Guarded (environment : Environment) (world : World) (remotePc : RemotePc)
    (operation : Operation) : Prop where
  silent : ∀ reply, (perform environment world operation).1 = .ok reply → ¬ reply.Tells remotePc
  pcs : (step environment world operation).db.remotePc = world.db.remotePc
  files : (step environment world operation).filesFor remotePc = world.filesFor remotePc

variable {environment : Environment} {world : World} {db : Database} {remotePc : RemotePc}
  {user : User} {operation : Operation}

/-! ### The checks -/

/-- A user with a membership in the group of a PC is not outside. -/
theorem not_outside_of_member {member : Member} {memberGroup : MemberGroup}
    (known : db.findByUsername user.username = some member)
    (assigned : memberGroup ∈ db.findByMember member)
    (inGroup : memberGroup.group = remotePc.group) : ¬ user.Outside db remotePc := by
  intro outside
  simp only [Database.findByMember, List.mem_filter, decide_eq_true_eq] at assigned
  have found : memberGroup ∈ db.findByMemberAndGroup member remotePc.group := by
    simp only [Database.findByMemberAndGroup, List.mem_filter, decide_eq_true_eq]
    exact ⟨assigned.1, assigned.2, inGroup⟩
  rw [outside member known] at found
  cases found

theorem not_outside_of_check {member : Member}
    (known : db.findByUsername user.username = some member)
    (own : db.findByMemberAndGroup member remotePc.group ≠ []) : ¬ user.Outside db remotePc :=
  fun outside => own (outside member known)

theorem mem_sortById {responses : List ResponseRemotePcDto} {response : ResponseRemotePcDto} :
    response ∈ RemotePcService.sortById responses ↔ response ∈ responses :=
  List.mem_insertionSort _

/-- The rows of a group are its PCs. -/
theorem mem_findByGroup {group : Long} {response : ResponseRemotePcDto}
    (listed : response ∈ (db.findByGroup group).map ResponseRemotePcDto.ofRemotePc) :
    ∃ remotePc ∈ db.remotePc.rows, remotePc.group = group ∧ response.id = remotePc.id := by
  obtain ⟨remotePc, found, rfl⟩ := List.mem_map.mp listed
  simp only [Database.findByGroup, List.mem_filter, decide_eq_true_eq] at found
  exact ⟨remotePc, found.1, found.2, rfl⟩

/-- The list over all groups of a user shows PCs of these groups. -/
theorem findByGroups_own {groups : List Group}
    (mine : RemotePcService.findGroupByMember db user = .ok groups)
    {response : ResponseRemotePcDto}
    (listed : response ∈ RemotePcService.findByGroups db groups) :
    ∃ remotePc ∈ db.remotePc.rows, response.id = remotePc.id ∧ ¬ user.Outside db remotePc := by
  simp only [RemotePcService.findGroupByMember, bind_eq_ok, orElseThrow_eq_ok,
    pure_eq_ok] at mine
  obtain ⟨member, known, rfl⟩ := mine
  obtain ⟨group, among, inGroup⟩ := List.mem_flatMap.mp (mem_sortById.mp listed)
  obtain ⟨memberGroup, assigned, found⟩ := List.mem_filterMap.mp among
  obtain ⟨remotePc, present, grouped, same⟩ := mem_findByGroup inGroup
  have named : group.id = memberGroup.group := (Table.findById_eq_some.mp found).2
  exact ⟨remotePc, present, same,
    not_outside_of_member known assigned (named.symm.trans grouped.symm)⟩

/-- The list of one group is refused to others than its members. -/
theorem findByGroupName_own {groupName : String} {responses : List ResponseRemotePcDto}
    (shown : RemotePcService.findByGroupName db groupName user = .ok responses)
    {response : ResponseRemotePcDto} (listed : response ∈ responses) :
    ∃ remotePc ∈ db.remotePc.rows, response.id = remotePc.id ∧ ¬ user.Outside db remotePc := by
  simp only [RemotePcService.findByGroupName, bind_eq_ok, orElseThrow_eq_ok, throwIf_eq_ok,
    pure_eq_ok] at shown
  obtain ⟨group, -, member, known, -, own, rfl⟩ := shown
  obtain ⟨remotePc, present, grouped, same⟩ := mem_findByGroup (mem_sortById.mp listed)
  rw [← grouped] at own
  exact ⟨remotePc, present, same, not_outside_of_check known own⟩

/-- The page of the PCs lists PCs of the user's groups alone. -/
theorem showRemotePcs_own {selectedGroupName : Option String} {reply : Reply}
    (shown : showRemotePcs db user selectedGroupName = .ok reply) :
    ∃ groups responses, reply = .remotePcs groups responses ∧ ∀ response ∈ responses,
      ∃ remotePc ∈ db.remotePc.rows, response.id = remotePc.id ∧ ¬ user.Outside db remotePc := by
  obtain ⟨mine, found, answer⟩ := bind_eq_ok.mp shown
  have ofAll := @findByGroups_own db user mine found
  cases selectedGroupName with
  | none =>
      obtain ⟨_, same, answered⟩ := bind_eq_ok.mp answer
      cases same
      cases answered
      exact ⟨mine, _, rfl, fun response listed => ofAll listed⟩
  | some groupName =>
      by_cases every : groupName = RemotePcService.allGroup
      · simp only [every, ↓reduceIte] at answer
        obtain ⟨_, same, answered⟩ := bind_eq_ok.mp answer
        cases same
        cases answered
        exact ⟨mine, _, rfl, fun response listed => ofAll listed⟩
      · simp only [every, ↓reduceIte] at answer
        obtain ⟨selected, chosen, answered⟩ := bind_eq_ok.mp answer
        cases answered
        exact ⟨mine, selected, rfl, fun response listed => findByGroupName_own chosen listed⟩

/-- The page of a PC is shown to members of its group alone. -/
theorem showViewer_own {id : Long} {reply : Reply} (shown : showViewer db user id = .ok reply) :
    ∃ remotePc ∈ db.remotePc.rows, remotePc.id = id ∧ ¬ user.Outside db remotePc := by
  simp only [showViewer, RemotePcService.findById, bind_eq_ok, orElseThrow_eq_ok, throwIf_eq_ok,
    pure_eq_ok] at shown
  obtain ⟨_, ⟨remotePc, found, -, -, member, known, -, own, -⟩, -⟩ := shown
  obtain ⟨present, same⟩ := Table.findById_eq_some.mp found
  exact ⟨remotePc, present, same, not_outside_of_check known own⟩

/-- A PC is deleted by members of its group alone. -/
theorem deletePc_own {id : Long} {groupName : Option String} {next : Database}
    (deleted : RemotePcService.deletePc db user id = .ok (groupName, next)) :
    ∃ remotePc ∈ db.remotePc.rows, remotePc.id = id ∧ ¬ user.Outside db remotePc := by
  obtain ⟨⟨remotePc, member, found, -, -, known, own⟩, -⟩ :=
    RemotePcService.deletePc_eq_ok deleted
  obtain ⟨present, same⟩ := Table.findById_eq_some.mp found
  exact ⟨remotePc, present, same, not_outside_of_check known own⟩

/-! ### The requests -/

/-- A transaction that commits nothing new and tells nothing of the PC. -/
theorem guarded_transact {transaction : Except Exception (Reply × Database)}
    (performs : perform environment world operation = transact world transaction)
    (harmless : ∀ reply next, transaction = .ok (reply, next) →
      ¬ reply.Tells remotePc ∧ next = world.db) :
    Guarded environment world remotePc operation := by
  rcases transact_cases world transaction with ⟨exception, -, failed⟩ | ⟨reply, next, ok, done⟩
  · rw [failed] at performs
    refine ⟨?_, ?_, ?_⟩
    · intro reply answered
      rw [performs] at answered
      cases answered
    · rw [step, performs]
    · rw [step, performs]
  · obtain ⟨silent, rfl⟩ := harmless reply next ok
    rw [done] at performs
    refine ⟨?_, ?_, ?_⟩
    · intro other answered
      rw [performs] at answered
      cases answered
      exact silent
    · rw [step, performs, World.withDb_db]
    · rw [step, performs]
      rfl

/-- An upload to the PC asks for no membership: it is harmless exactly when the
server cannot store the file. -/
theorem guarded_uploadFile_iff (present : remotePc ∈ world.db.remotePc.rows) {now : Date}
    {file : MultipartFile} {fault : Option UploadFault} :
    Guarded environment world remotePc
        (.uploadFile now file (some remotePc.repeaterId) user fault) ↔
      ∀ recipient, ¬ Operation.UploadsFor environment world recipient
        (.uploadFile now file (some remotePc.repeaterId) user fault) := by
  constructor
  · rintro guarded recipient ⟨meant, encrypted, storable⟩
    have found : world.db.findByRepeaterId remotePc.repeaterId = some remotePc :=
      Database.findByRepeaterId_eq_some.mpr ⟨present, rfl⟩
    have addressed := meant
    simp only [recipientOf, found, Option.map_eq_some_iff] at addressed
    obtain ⟨reconnectId, holds, rfl⟩ := addressed
    obtain ⟨after, disk, stored, rows, -⟩ :=
      uploadFile_stored (uploadReconnectId_eq_ok.mpr ⟨_, meant, rfl⟩) storable
    have files := guarded.files
    change ((uploadFile environment world now file (some remotePc.repeaterId) user
      fault).2.db.fileInfo.rows.filter _) = _ at files
    rw [stored, rows, List.filter_append, List.filter_cons_of_pos (by simp [holds]; rfl),
      World.filesFor] at files
    have length := congrArg List.length files
    rw [List.length_append, List.length_cons] at length
    omega
  · intro unstored
    rcases uploadFile_cases environment world now file (some remotePc.repeaterId) user fault with
      ⟨exception, disk, refused, -⟩ | ⟨reconnectId, encrypted, addressed, storable⟩
    · refine ⟨?_, ?_, ?_⟩
      · intro reply answered
        change (uploadFile environment world now file (some remotePc.repeaterId) user
          fault).1.map _ = _ at answered
        rw [refused] at answered
        cases answered
      · change (uploadFile environment world now file (some remotePc.repeaterId) user
          fault).2.db.remotePc = _
        rw [refused]
      · change World.filesFor (uploadFile environment world now file (some remotePc.repeaterId)
          user fault).2 remotePc = _
        rw [refused]
        rfl
    · obtain ⟨recipient, meant, rfl⟩ := uploadReconnectId_eq_ok.mp addressed
      exact (unstored recipient ⟨meant, encrypted, storable⟩).elim

section Outside

variable (present : remotePc ∈ world.db.remotePc.rows) (outside : user.Outside world.db remotePc)

include present outside

/-- A check that some PC with its id is in a group of the user fails for the PC. -/
theorem not_own {id : Long} (named : id = remotePc.id) :
    ¬ ∃ other ∈ world.db.remotePc.rows, other.id = id ∧ ¬ user.Outside world.db other := by
  rintro ⟨other, member, same, own⟩
  have unique : other = remotePc := Table.eq_of_key_eq member present (same.trans named)
  exact own (unique ▸ outside)

/-- The page of the PCs guards every PC. -/
theorem guarded_showRemotePcs (selectedGroupName : Option String) :
    Guarded environment world remotePc (.showRemotePcs user selectedGroupName) := by
  apply guarded_transact rfl
  intro reply next ok
  obtain ⟨answer, shown, same⟩ := bind_eq_ok.mp ok
  cases same
  obtain ⟨groups, responses, rfl, own⟩ := showRemotePcs_own shown
  refine ⟨?_, rfl⟩
  rintro ⟨response, listed, named⟩
  obtain ⟨other, member, same, inside⟩ := own response listed
  exact not_own present outside named ⟨other, member, same.symm, inside⟩

/-- The page of a PC checks the membership. -/
theorem guarded_showViewer :
    Guarded environment world remotePc (.showViewer user remotePc.id) := by
  apply guarded_transact rfl
  intro reply next ok
  obtain ⟨answer, shown, same⟩ := bind_eq_ok.mp ok
  exact (not_own present outside rfl (showViewer_own shown)).elim

/-- The deletion of a PC checks the membership. -/
theorem guarded_deleteRemotePc :
    Guarded environment world remotePc (.deleteRemotePc user remotePc.id) := by
  apply guarded_transact rfl
  intro reply next ok
  obtain ⟨⟨groupName, after⟩, deleted, same⟩ := bind_eq_ok.mp ok
  exact (not_own present outside rfl (deletePc_own deleted)).elim

end Outside

/-- A web request about a PC outside the groups of its user is harmless if and
only if it is no upload of a file the server can store. -/
theorem guarded_iff (present : remotePc ∈ world.db.remotePc.rows)
    (outside : user.Outside world.db remotePc) (request : operation.WebRequest user remotePc) :
    Guarded environment world remotePc operation ↔
      ∀ recipient, ¬ operation.UploadsFor environment world recipient := by
  cases operation with
  | showRemotePcs sender selectedGroupName =>
      obtain rfl : sender = user := request
      exact iff_of_true (guarded_showRemotePcs present outside selectedGroupName)
        fun _ => not_false
  | showViewer sender id =>
      obtain ⟨rfl, rfl⟩ := request
      exact iff_of_true (guarded_showViewer present outside) fun _ => not_false
  | deleteRemotePc sender id =>
      obtain ⟨rfl, rfl⟩ := request
      exact iff_of_true (guarded_deleteRemotePc present outside) fun _ => not_false
  | uploadFile now file repeaterId sender fault =>
      obtain ⟨rfl, rfl⟩ := request
      exact guarded_uploadFile_iff present
  | _ => exact request.elim

/-- The administrator has registered the user and given no group. -/
def registeredKim : List Operation :=
  [.createUser { username := some "kim", password := some "secret"
                 passwordConfirm := some "secret" }]

/-- A user who is in no group. -/
def kimOutside : World :=
  run (step .dev) (initial .dev) registeredKim

theorem freshBasePc_mem_kimOutside : freshBasePc ∈ kimOutside.db.remotePc.rows := by
  decide +kernel

/-- The user is outside of its group. -/
theorem kim_outside : kim.Outside kimOutside.db freshBasePc := by
  intro member _
  have noMemberships : kimOutside.db.memberGroup.rows = [] := by
    decide +kernel
  rw [Database.findByMemberAndGroup, noMemberships, List.filter_nil]

theorem kim_guarded_iff :
    Guarded .dev kimOutside freshBasePc (.showViewer kim 1) ↔
      ∀ recipient, ¬ Operation.UploadsFor .dev kimOutside recipient (.showViewer kim 1) :=
  guarded_iff freshBasePc_mem_kimOutside kim_outside ⟨rfl, rfl⟩

/-- A user without a group sends a file to the client of the base PC. -/
theorem upload_without_membership :
    ¬ ∀ (environment : Environment) (world : World) (remotePc : RemotePc) (user : User)
        (operation : Operation), Reachable environment world →
      remotePc ∈ world.db.remotePc.rows →
      (∃ member ∈ world.db.member.rows, user = .createUser member) →
      user.Outside world.db remotePc → operation.WebRequest user remotePc →
      Guarded environment world remotePc operation := by
  intro guarded
  have registered : ∃ member ∈ kimOutside.db.member.rows, kim = .createUser member := by
    decide +kernel
  have files := (guarded .dev kimOutside freshBasePc kim sendToBase ⟨registeredKim, rfl⟩
    freshBasePc_mem_kimOutside registered kim_outside ⟨rfl, rfl⟩).files
  exact absurd (congrArg List.length files) (by decide +kernel)

end MegaVnc
