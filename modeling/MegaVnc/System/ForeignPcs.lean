import MegaVnc.Foundation.TwoRuns
import MegaVnc.System.FilePrivacy
import MegaVnc.System.OwnPcs

/-! # What a user learns of other groups' PCs

The pages of a user show the PCs of his groups. The status updates go to every
session that is open, whatever PC they are about, and the viewer tells that a PC
is offline before it checks the membership.
-/

namespace MegaVnc

open Relational Fallible Application Transition
open MessageService (Signals afterEvent parseMessage validNumbers handlePcEvent)

/-- A WebSocket session at `/ws/status`; only a user who has logged in gets one. -/
structure WebSocketSession where
  user : User
  number : Nat
deriving DecidableEq

/-- The application with the sessions of `RemotePcStatusHandler`. -/
structure Site where
  world : World
  sessions : List WebSocketSession

/-- An operation, a session that comes or goes, or values of the sequence that
are given to no PC: the ids of the rows are whatever the database gives. -/
inductive SiteAction where
  | operate (operation : Operation)
  | afterConnectionEstablished (session : WebSocketSession)
  | afterConnectionClosed (session : WebSocketSession)
  | skipIds (count : Nat)
deriving DecidableEq

/-- What a browser receives: a page or the exception it is answered with, or a
message of a session. -/
inductive Received where
  | page (answer : Except Exception Reply)
  | message (session : WebSocketSession) (update : StatusUpdate)

/-- What reaches the user. -/
def Received.reaches (username : Option String) : Received → Bool
  | .page _ => true
  | .message session _ => session.user.username = username

/-- A page of a user that shows PCs. -/
def Operation.isPageOf (username : Option String) : Operation → Bool
  | .showRemotePcs user _ | .showViewer user _ => user.username = username
  | _ => false

/-- The messages an operation sends. -/
def Operation.sent (environment : Environment) (world : World) (operation : Operation) :
    List StatusUpdate :=
  (step environment world operation).broadcasts.drop world.broadcasts.length

namespace Site

/-- An operation changes the world; a session is opened or closed. -/
def step (environment : Environment) (site : Site) : SiteAction → Site
  | .operate operation => { site with world := Application.step environment site.world operation }
  | .afterConnectionEstablished session => { site with sessions := site.sessions ++ [session] }
  | .afterConnectionClosed session => { site with sessions := site.sessions.erase session }
  | .skipIds count =>
      { site with
        world := site.world.withDb
          { site.world.db with remotePc := site.world.db.remotePc.skipKeys count } }

/-- Every open session is sent the message. -/
def sendStatusUpdate (site : Site) (update : StatusUpdate) : List Received :=
  site.sessions.map fun session => .message session update

/-- What the user is sent for an action: a page of his own, and the messages of his
sessions. -/
def receive (environment : Environment) (username : Option String) (site : Site) :
    SiteAction → List Received
  | .operate operation =>
      (if operation.isPageOf username then
        [.page (perform environment site.world operation).1] else []) ++
      ((operation.sent environment site.world).flatMap site.sendStatusUpdate).filter
        (Received.reaches username)
  | _ => []

/-- The first start, before anyone has come. -/
def start (environment : Environment) : Site where
  world := initial environment
  sessions := []

/-- The application as a user sees it. -/
def seenBy (environment : Environment) (username : Option String) :
    TwoRuns.System Site SiteAction Received where
  step := step environment
  observe := receive environment username

end Site

/-- The PC whose state the event of a line changes. -/
def Database.concerned (db : Database) (message : String) : Option RemotePc :=
  match parseMessage message with
  | .error _ => none
  | .ok eventMessage =>
      if eventMessage.evNum ∈ validNumbers then db.findByRepeaterId eventMessage.getRepeaterId
      else none

/-- The group a registration or a call of a client names. -/
def Operation.groupName : Operation → Option String
  | .registerRemotePcApi registerRemotePcDto | .registerRemotePcWeb registerRemotePcDto =>
      registerRemotePcDto.groupName
  | .connectSettingRepeater remotePcDto => remotePcDto.groupName
  | _ => none

/-! ### Runs that differ outside the groups of a user -/

section

variable (mine : Long → Prop) [DecidablePred mine] (username : Option String)

/-- The groups of the user are among these. -/
def Database.GroupsAmong (db : Database) : Prop :=
  ∀ memberGroup ∈ db.memberGroup.rows, ∀ member ∈ db.findByUsername username,
    memberGroup.member = member.id → mine memberGroup.group

instance Database.decidableGroupsAmong (db : Database) : Decidable (db.GroupsAmong mine username) :=
  inferInstanceAs (Decidable (∀ memberGroup ∈ db.memberGroup.rows,
    ∀ member ∈ db.findByUsername username, memberGroup.member = member.id → mine memberGroup.group))

/-- A registration, a status event, or an assignment of PCs that are all outside
the groups. -/
def Operation.Foreign (db : Database) (operation : Operation) : Prop :=
  match operation with
  | .registerRemotePcApi _ | .registerRemotePcWeb _ | .connectSettingRepeater _ =>
      ∀ group, db.findByGroupName operation.groupName = some group → ¬ mine group.id
  | .disAssignRemotePc reconnectId => ∀ remotePc ∈ db.remotePc.rows,
      remotePc.reconnectId = some reconnectId → ¬ mine remotePc.group
  | .processMessage _ message => ∀ remotePc, db.concerned message = some remotePc →
      ¬ mine remotePc.group
  | _ => False

/-- What one of two runs may do alone. -/
def Site.Alone (site : Site) : SiteAction → Prop
  | .operate operation => operation.Foreign mine site.world.db
  | .skipIds _ => True
  | _ => False

/-- A PC that both runs register in the groups gets the same id in both. -/
def Site.SameIds (first second : Site) (action : SiteAction) : Prop :=
  ∀ operation, action = .operate operation → operation.Registers →
    ∀ group, first.world.db.findByGroupName operation.groupName = some group → mine group.id →
      first.world.db.remotePc.nextKey = second.world.db.remotePc.nextKey

/-- The user has an open session. -/
def Site.Listening (site : Site) : Prop :=
  ∃ session ∈ site.sessions, session.user.username = username

/-- A PC that one run changes alone tells the user nothing: its events fall when
the user has no open session. -/
def Site.Unheard (site : Site) (action : SiteAction) : Prop :=
  ∀ now message, action = .operate (.processMessage now message) →
    site.world.db.concerned message ≠ none → ¬ site.Listening username

/-- The PCs outside the groups make no difference to what both runs do. -/
structure Site.Indifferent (first second : Site) (action : SiteAction) : Prop where
  heard : ∀ now message, action = .operate (.processMessage now message) →
    first.Listening username →
    (first.world.db.concerned message).map (fun remotePc => (remotePc.id, remotePc.assignedAt)) =
      (second.world.db.concerned message).map fun remotePc => (remotePc.id, remotePc.assignedAt)
  viewed : ∀ user id, action = .operate (.showViewer user id) → user.username = username →
    first.world.db.offline id = second.world.db.offline id
  numbered : ∀ operation, action = .operate operation → operation.Registers →
    ∀ group, first.world.db.findByGroupName operation.groupName = some group → mine group.id →
      RemotePcApiService.nextRepeaterId first.world.db.findTopByOrderByRepeaterIdDesc =
        RemotePcApiService.nextRepeaterId second.world.db.findTopByOrderByRepeaterIdDesc
  released : ∀ reconnectId, action = .operate (.disAssignRemotePc reconnectId) →
    (∃ remotePc ∈ first.world.db.pcsOf mine, remotePc.reconnectId = some reconnectId) →
    (first.world.db.HeldOutside mine reconnectId ↔
      second.world.db.HeldOutside mine reconnectId)

end

variable {mine : Long → Prop} [DecidablePred mine] {username : Option String}
  {environment : Environment} {world : World} {operation : Operation}

/-! ### What an operation sends -/

/-- A line concerns the stored PC of its event. -/
theorem concerned_eq_some {db : Database} {message : String} {remotePc : RemotePc} :
    db.concerned message = some remotePc ↔ ∃ eventMessage, parseMessage message = .ok eventMessage ∧
      eventMessage.evNum ∈ validNumbers ∧
      db.findByRepeaterId eventMessage.getRepeaterId = some remotePc := by
  unfold Database.concerned
  cases parsed : parseMessage message with
  | error exception => simp only [reduceCtorEq, false_and, exists_false]
  | ok eventMessage =>
      by_cases concerned : eventMessage.evNum ∈ validNumbers
      · simp only [concerned, ↓reduceIte, Except.ok.injEq, exists_eq_left', true_and]
      · simp only [concerned, ↓reduceIte, reduceCtorEq, Except.ok.injEq, exists_eq_left',
          false_and]

/-- A line that concerns no PC changes nothing. -/
theorem processMessage_unconcerned {now : Date} {message : String}
    (unconcerned : world.db.concerned message = none) :
    step environment world (.processMessage now message) = world := by
  change (MessageService.processMessage world now message).2 = world
  unfold Database.concerned at unconcerned
  unfold MessageService.processMessage MessageService.handleEvent
  cases parsed : parseMessage message with
  | error exception => rfl
  | ok eventMessage =>
      by_cases concerned : eventMessage.evNum ∈ validNumbers
      · simp only [parsed, concerned, ↓reduceIte] at unconcerned
        simp only [concerned, ↓reduceIte, unconcerned]
      · simp only [concerned, ↓reduceIte]

/-- A line that concerns a PC changes its row and tells its new state. -/
theorem processMessage_concerned {now : Date} {message : String} {remotePc : RemotePc}
    (concerned : world.db.concerned message = some remotePc) :
    ∃ eventMessage, parseMessage message = .ok eventMessage ∧
      eventMessage.evNum ∈ validNumbers ∧ remotePc ∈ world.db.remotePc.rows ∧
      (Operation.processMessage now message).sent environment world =
        [(afterEvent now eventMessage.evNum remotePc).statusUpdate] ∧
      (step environment world (.processMessage now message)).db.remotePc.rows =
        Table.replace world.db.remotePc.rows (afterEvent now eventMessage.evNum remotePc) := by
  obtain ⟨eventMessage, parsed, valid, found⟩ := concerned_eq_some.mp concerned
  have handled : step environment world (.processMessage now message) =
      (handlePcEvent world now eventMessage remotePc).2 := by
    change (MessageService.processMessage world now message).2 = _
    simp only [MessageService.processMessage, parsed, MessageService.handleEvent, valid, ↓reduceIte,
      found]
  have present := (Database.findByRepeaterId_eq_some.mp found).1
  obtain ⟨after, accessLogs, broadcasts, changed, rows, -⟩ :=
    @MessageService.handlePcEvent_world world now eventMessage remotePc remotePc present rfl rfl
      (world.db.remotePc.rows_fit remotePc present) valid
  refine ⟨eventMessage, parsed, valid, present, ?_, ?_⟩
  · rw [Operation.sent, handled, MessageService.handlePcEvent_broadcasts world now remotePc valid,
      List.drop_left]
  · rw [handled, changed]
    exact rows

theorem sent_eq_nil (other : ∀ now message, operation ≠ .processMessage now message) :
    operation.sent environment world = [] := by
  rw [Operation.sent, step_broadcasts other, List.drop_length]

/-! ### PCs outside the groups -/

/-- A registration in another group leaves the own PCs. -/
theorem pcsOf_register_foreign {exception : ErrorCode → String → Exception} {notSelected : String}
    {registerRemotePcDto : RegisterRemotePcDto}
    (foreign : ∀ group, world.db.findByGroupName registerRemotePcDto.groupName = some group →
      ¬ mine group.id) :
    (transact world do
      let db ← RemotePcApiService.registerRemotePcWith exception notSelected world.db
        registerRemotePcDto
      pure (.done, db)).2.db.pcsOf mine = world.db.pcsOf mine := by
  apply transact_keeps
  intro reply db ok
  obtain ⟨registered, rfl⟩ := done_eq_ok.mp ok
  obtain ⟨_, _, group, accepted, inserted⟩ :=
    RemotePcApiService.registerRemotePcWith_eq_ok_iff.mp registered
  obtain ⟨_, _, -, -, -, after, rfl, rows, -⟩ := Database.insertRemotePc_eq_ok inserted
  change after.rows.filter _ = _
  rw [rows, List.filter_append, Database.pcsOf]
  have outside : ¬ mine group.id := foreign group accepted.inGroup
  simp [RemotePc.createRemotePc, outside]

/-- An operation that only changes rows outside the groups. -/
theorem pcsOf_step_of_changes (registers : ¬ operation.Registers)
    (starts : ∀ lostKeys, operation ≠ .dataLoader lostKeys)
    (deletes : ∀ remotePc, ¬ operation.Deletes remotePc)
    (outside : ∀ old ∈ world.db.remotePc.rows, ∀ new, old.Change world.db operation new →
      ¬ mine old.group) :
    (step environment world operation).db.pcsOf mine = world.db.pcsOf mine := by
  cases step_effect environment world operation with
  | kept rows nextKey => rw [Database.pcsOf, rows, Database.pcsOf]
  | @changed old new present change rows nextKey =>
      exact pcsOf_replace_foreign present change.sameIdentity (outside old present new change) rows
  | registered registered =>
      exact (registers (Operation.registers_of_registration registered)).elim
  | loaded loads missing rows nextKey => exact (starts _ loads).elim
  | deleted doomed decided deletes' rows nextKey =>
      rw [Database.pcsOf, rows, Database.pcsOf]
      refine congrArg (List.filter _) (List.filter_eq_self.mpr fun row _ => ?_)
      exact decide_eq_true fun gone => deletes row ((deletes' row).mp gone)

/-- A change of PCs outside the groups leaves the PCs in them. -/
theorem pcsOf_step_foreign (foreign : operation.Foreign mine world.db) :
    (step environment world operation).db.pcsOf mine = world.db.pcsOf mine := by
  cases operation with
  | registerRemotePcApi registerRemotePcDto => exact pcsOf_register_foreign foreign
  | registerRemotePcWeb registerRemotePcDto => exact pcsOf_register_foreign foreign
  | connectSettingRepeater remotePcDto =>
      refine pcsOf_step_of_changes not_false (fun _ => nofun) (fun _ => not_false)
        fun old present new change => ?_
      cases change with
      | connected inGroup found free given keeps answered =>
          obtain ⟨-, -, grouped⟩ := RemotePcApiService.mem_of_find? found
          exact grouped ▸ foreign _ inGroup
  | disAssignRemotePc reconnectId =>
      refine pcsOf_step_of_changes not_false (fun _ => nofun) (fun _ => not_false)
        fun old present new change => ?_
      cases change with
      | released found =>
          exact foreign old present (Database.findByReconnectId_eq_ok_some found).2
  | processMessage now message =>
      refine pcsOf_step_of_changes not_false (fun _ => nofun) (fun _ => not_false)
        fun old present new change => ?_
      cases change with
      | signalled signals =>
          obtain ⟨eventMessage, parsed, rfl, named, valid⟩ := signals
          exact foreign old (concerned_eq_some.mpr ⟨eventMessage, parsed, valid,
            Database.findByRepeaterId_eq_some.mpr ⟨present, named.symm⟩⟩)
  | _ => exact foreign.elim

/-- Groups, users and memberships stay where no operation on them writes. -/
theorem directory_step (unwritten : ∀ table ∈ operation.writes, table = .remotePc ∨
      table = .fileInfo ∨ table = .accessLogs) :
    (step environment world operation).db.segment = world.db.segment ∧
      (step environment world operation).db.member = world.db.member ∧
      (step environment world operation).db.memberGroup = world.db.memberGroup := by
  have apart (table : TableName)
      (other : ¬ (table = .remotePc ∨ table = .fileInfo ∨ table = .accessLogs)) :
      table ∉ operation.writes := fun written => other (unwritten table written)
  refine ⟨?_, ?_, ?_⟩
  · exact @step_same environment world operation .segment (apart _ (by decide))
  · exact @step_same environment world operation .member (apart _ (by decide))
  · exact @step_same environment world operation .memberGroup (apart _ (by decide))

/-- A foreign operation leaves all that is alike. -/
theorem alike_step_foreign (foreign : operation.Foreign mine world.db) :
    (step environment world operation).db.Alike mine world.db := by
  have unwritten : ∀ table ∈ operation.writes, table = .remotePc ∨ table = .fileInfo ∨
      table = .accessLogs := by
    cases operation with
    | registerRemotePcApi registerRemotePcDto => simp [Operation.writes]
    | registerRemotePcWeb registerRemotePcDto => simp [Operation.writes]
    | connectSettingRepeater remotePcDto => simp [Operation.writes]
    | disAssignRemotePc reconnectId => simp [Operation.writes]
    | processMessage now message => simp [Operation.writes]
    | _ => exact foreign.elim
  obtain ⟨segment, member, memberGroup⟩ := @directory_step environment world operation unwritten
  exact ⟨segment, member, memberGroup, pcsOf_step_foreign foreign⟩

omit [DecidablePred mine] in
/-- While no PC is in the groups, every line is about PCs outside them. -/
theorem processMessage_foreign (outside : ∀ remotePc ∈ world.db.remotePc.rows,
    ¬ mine remotePc.group) (now : Date) (message : String) :
    (Operation.processMessage now message).Foreign mine world.db := by
  intro remotePc concerned
  obtain ⟨_, -, -, found⟩ := concerned_eq_some.mp concerned
  exact outside remotePc (Database.findByRepeaterId_eq_some.mp found).1

/-! ### What both runs do -/

omit [DecidablePred mine] in
theorem Site.SameIds.refl (site : Site) (action : SiteAction) :
    Site.SameIds mine site site action :=
  fun _ _ _ _ _ _ => rfl

theorem Site.Indifferent.refl (site : Site) (action : SiteAction) :
    Site.Indifferent mine username site site action where
  heard _ _ _ _ := rfl
  viewed _ _ _ _ := rfl
  numbered _ _ _ _ _ _ := rfl
  released _ _ _ := Iff.rfl

/-- What the loader looks for. -/
structure Database.Loaded (db : Database) : Prop where
  base : ∃ group ∈ db.segment.rows, group.id = 1
  admin : ∃ member ∈ db.member.rows, member.username = some "admin"
  basePc : ∃ remotePc ∈ db.remotePc.rows, remotePc.repeaterId = 100

variable {first second : World}

/-- A transaction that succeeds on both sides or on neither keeps the databases alike. -/
theorem transact_alike {transaction other : Except Exception (Reply × Database)}
    (alike : first.db.Alike mine second.db)
    (together : Together (fun outcome reply => outcome.2.Alike mine reply.2) transaction other) :
    (transact first transaction).2.db.Alike mine (transact second other).2.db := by
  cases transaction with
  | ok outcome =>
      cases other with
      | ok reply => exact together
      | error exception => exact together.elim
  | error exception =>
      cases other with
      | ok reply => exact together.elim
      | error exception => exact alike

/-- A service that returns the database. -/
theorem transact_done_alike {service other : Except Exception Database}
    (alike : first.db.Alike mine second.db)
    (together : Together (Database.Alike mine) service other) :
    (transact first do
      let db ← service
      pure (.done, db)).2.db.Alike mine (transact second do
        let db ← other
        pure (.done, db)).2.db :=
  transact_alike alike (together.bind fun _ _ written => written)

/-- An operation that writes only files and logs keeps two worlds alike. -/
theorem alike_of_unwritten (alike : first.db.Alike mine second.db)
    (unwritten : ∀ table ∈ operation.writes, table = .fileInfo ∨ table = .accessLogs) :
    (step environment first operation).db.Alike mine (step environment second operation).db := by
  have kept (world : World) : (step environment world operation).db.Alike mine world.db := by
    obtain ⟨segment, member, memberGroup⟩ := @directory_step environment world operation
      fun table written => Or.inr (unwritten table written)
    have remotePc : (step environment world operation).db.remotePc = world.db.remotePc :=
      @step_same environment world operation .remotePc fun written => by
        rcases unwritten .remotePc written with same | same <;> cases same
    exact ⟨segment, member, memberGroup, by rw [Database.pcsOf, remotePc, Database.pcsOf]⟩
  exact (kept first).trans (alike.trans (kept second).symm)

/-- A start of a loaded application keeps two worlds alike. -/
theorem dataLoader_alike (alike : first.db.Alike mine second.db) (firstLoaded : first.db.Loaded)
    (secondLoaded : second.db.Loaded) (lostKeys : Nat) :
    (step environment first (.dataLoader lostKeys)).db.Alike mine
      (step environment second (.dataLoader lostKeys)).db := by
  have skipped (world : World) (loaded : world.db.Loaded) :
      (step environment world (.dataLoader lostKeys)).db = world.db.skipKeys lostKeys :=
    MegaVncApplication.dataLoader_loaded environment.encodePassword_fits loaded.base loaded.admin
      loaded.basePc
  rw [skipped first firstLoaded, skipped second secondLoaded]
  refine ⟨?_, ?_, ?_, alike.pcs⟩
  · exact congrArg (·.skipKeys lostKeys) alike.segment
  · exact congrArg (·.skipKeys lostKeys) alike.member
  · exact congrArg (·.skipKeys lostKeys) alike.memberGroup

/-- The deletion of any PC keeps them alike. -/
theorem deletePc_alike (alike : first.db.Alike mine second.db) (user : User) (id : Long) :
    (step environment first (.deleteRemotePc user id)).db.Alike mine
      (step environment second (.deleteRemotePc user id)).db := by
  by_cases own : ∃ remotePc ∈ first.db.pcsOf mine, remotePc.id = id
  · obtain ⟨remotePc, listed, rfl⟩ := own
    obtain ⟨present, inside⟩ := mem_pcsOf.mp listed
    apply transact_alike alike
    exact (alike.deletePc user present inside).bind fun _ _ deleted => deleted
  · have kept (world : World) (absent : ¬ ∃ remotePc ∈ world.db.pcsOf mine, remotePc.id = id) :
        (step environment world (.deleteRemotePc user id)).db.Alike mine world.db := by
      refine transact_holds (fun db => db.Alike mine world.db) ⟨rfl, rfl, rfl, rfl⟩
        fun reply db ok => ?_
      obtain ⟨groupName, deleted, rfl⟩ := (answered_eq_ok .deleted).mp ok
      obtain ⟨-, rfl⟩ := RemotePcService.deletePc_eq_ok deleted
      refine ⟨rfl, rfl, rfl, ?_⟩
      rw [pcsOf_deleteRemotePcsWhere]
      refine List.filter_eq_self.mpr fun row listed => ?_
      exact decide_eq_true fun named => absent ⟨row, listed, named⟩
    have absentToo : ¬ ∃ remotePc ∈ second.db.pcsOf mine, remotePc.id = id := alike.pcs ▸ own
    exact (kept first own).trans (alike.trans (kept second absentToo).symm)

/-- A foreign operation keeps them alike. -/
theorem foreign_alike (alike : first.db.Alike mine second.db)
    (firstForeign : operation.Foreign mine first.db)
    (secondForeign : operation.Foreign mine second.db) :
    (step environment first operation).db.Alike mine (step environment second operation).db :=
  (alike_step_foreign firstForeign).trans (alike.trans (alike_step_foreign secondForeign).symm)

/-- An event of a PC of the groups concerns the same row in both. -/
theorem concerned_own {db other : Database} (alike : db.Alike mine other) {message : String}
    {remotePc : RemotePc} (concerned : db.concerned message = some remotePc)
    (own : mine remotePc.group) : other.concerned message = some remotePc := by
  obtain ⟨eventMessage, parsed, valid, found⟩ := concerned_eq_some.mp concerned
  obtain ⟨present, named⟩ := Database.findByRepeaterId_eq_some.mp found
  exact concerned_eq_some.mpr ⟨eventMessage, parsed, valid,
    Database.findByRepeaterId_eq_some.mpr ⟨alike.mem own present, named⟩⟩

/-- A line of the repeater keeps them alike, whichever PC it is about. -/
theorem processMessage_alike (alike : first.db.Alike mine second.db) (now : Date)
    (message : String) : (step environment first (.processMessage now message)).db.Alike mine
      (step environment second (.processMessage now message)).db := by
  by_cases own : ∃ remotePc, first.db.concerned message = some remotePc ∧ mine remotePc.group
  · obtain ⟨remotePc, concerned, inside⟩ := own
    have concernedToo := concerned_own alike concerned inside
    obtain ⟨eventMessage, parsed, -, present, -, rows⟩ :=
      @processMessage_concerned environment first now message remotePc concerned
    obtain ⟨eventMessageToo, parsedToo, -, presentToo, -, rowsToo⟩ :=
      @processMessage_concerned environment second now message remotePc concernedToo
    cases parsed.symm.trans parsedToo
    have identity : remotePc.SameIdentity (afterEvent now eventMessage.evNum remotePc) :=
      ⟨rfl, rfl, rfl, rfl, rfl⟩
    have directory (world : World) := @directory_step environment world
      (.processMessage now message) (by simp [Operation.writes])
    obtain ⟨segment, member, memberGroup⟩ := directory first
    obtain ⟨segmentToo, memberToo, memberGroupToo⟩ := directory second
    refine ⟨?_, ?_, ?_, (alike.replaced present inside identity rows rowsToo).pcs⟩
    · rw [segment, segmentToo, alike.segment]
    · rw [member, memberToo, alike.member]
    · rw [memberGroup, memberGroupToo, alike.memberGroup]
  · refine foreign_alike alike (fun remotePc concerned inside => own ⟨remotePc, concerned, inside⟩)
      fun remotePc concerned inside => own ⟨remotePc, ?_, inside⟩
    exact concerned_own alike.symm concerned inside

/-- A call of an app keeps them alike. -/
theorem connect_alike (alike : first.db.Alike mine second.db) (remotePcDto : RequestRemotePcDto) :
    (step environment first (.connectSettingRepeater remotePcDto)).db.Alike mine
      (step environment second (.connectSettingRepeater remotePcDto)).db := by
  by_cases own : ∃ group, first.db.findByGroupName remotePcDto.groupName = some group ∧
      mine group.id
  · obtain ⟨group, inGroup, inside⟩ := own
    apply transact_alike alike
    exact (alike.connectSettingRepeater inGroup inside).bind fun _ _ connected => connected
  · refine foreign_alike alike (fun group inGroup inside => own ⟨group, inGroup, inside⟩)
      fun group inGroup inside => own ⟨group, ?_, inside⟩
    exact (alike.findByGroupName remotePcDto.groupName).trans inGroup

/-- A release keeps them alike when on both sides another PC decides it alike. -/
theorem disAssign_alike (alike : first.db.Alike mine second.db) (reconnectId : String)
    (released : (∃ remotePc ∈ first.db.pcsOf mine, remotePc.reconnectId = some reconnectId) →
      (first.db.HeldOutside mine reconnectId ↔ second.db.HeldOutside mine reconnectId)) :
    (step environment first (.disAssignRemotePc reconnectId)).db.Alike mine
      (step environment second (.disAssignRemotePc reconnectId)).db := by
  by_cases own : ∃ remotePc ∈ first.db.pcsOf mine, remotePc.reconnectId = some reconnectId
  · obtain ⟨holder, listed, holds⟩ := own
    obtain ⟨present, inside⟩ := mem_pcsOf.mp listed
    apply transact_done_alike alike
    exact alike.disAssign present inside holds (released ⟨holder, listed, holds⟩)
  · refine foreign_alike alike (fun remotePc member holds inside => own ⟨remotePc, ?_, holds⟩)
      fun remotePc member holds inside => own ⟨remotePc, ?_, holds⟩
    · exact mem_pcsOf.mpr ⟨member, inside⟩
    · exact mem_pcsOf.mpr ⟨alike.symm.mem inside member, inside⟩

/-- A registration in another group keeps them alike. -/
theorem register_foreign_alike {exception : ErrorCode → String → Exception} {notSelected : String}
    {registerRemotePcDto : RegisterRemotePcDto}
    (outside : ∀ group, world.db.findByGroupName registerRemotePcDto.groupName = some group →
      ¬ mine group.id) :
    (transact world do
      let db ← RemotePcApiService.registerRemotePcWith exception notSelected world.db
        registerRemotePcDto
      pure (.done, db)).2.db.Alike mine world.db := by
  refine ⟨?_, ?_, ?_, pcsOf_register_foreign outside⟩
  · exact @register_same world .segment _ _ _ nofun
  · exact @register_same world .member _ _ _ nofun
  · exact @register_same world .memberGroup _ _ _ nofun

/-- Both services. -/
theorem register_alike (alike : first.db.Alike mine second.db)
    {exception : ErrorCode → String → Exception} {notSelected : String}
    {registerRemotePcDto : RegisterRemotePcDto}
    (same : ∀ group, first.db.findByGroupName registerRemotePcDto.groupName = some group →
      mine group.id → first.db.remotePc.nextKey = second.db.remotePc.nextKey ∧
        RemotePcApiService.nextRepeaterId first.db.findTopByOrderByRepeaterIdDesc =
          RemotePcApiService.nextRepeaterId second.db.findTopByOrderByRepeaterIdDesc) :
    (transact first do
      let db ← RemotePcApiService.registerRemotePcWith exception notSelected first.db
        registerRemotePcDto
      pure (.done, db)).2.db.Alike mine (transact second do
        let db ← RemotePcApiService.registerRemotePcWith exception notSelected second.db
          registerRemotePcDto
        pure (.done, db)).2.db := by
  by_cases own : ∃ group, first.db.findByGroupName registerRemotePcDto.groupName = some group ∧
      mine group.id
  · obtain ⟨group, inGroup, inside⟩ := own
    obtain ⟨sameKey, sameTop⟩ := same group inGroup inside
    apply transact_done_alike alike
    refine alike.registerRemotePcWith (fun other named => ?_) sameKey sameTop
    cases inGroup.symm.trans named
    exact inside
  · have outside : ∀ group, first.db.findByGroupName registerRemotePcDto.groupName = some group →
        ¬ mine group.id := fun group named inside => own ⟨group, named, inside⟩
    have outsideToo : ∀ group,
        second.db.findByGroupName registerRemotePcDto.groupName = some group → ¬ mine group.id := by
      rwa [← alike.findByGroupName]
    exact (register_foreign_alike outside).trans
      (alike.trans (register_foreign_alike outsideToo).symm)

section Shared

variable {site other : Site} {action : SiteAction}

/-- What both runs do keeps them alike. -/
theorem alike_step (alike : site.world.db.Alike mine other.world.db)
    (loaded : site.world.db.Loaded) (otherLoaded : other.world.db.Loaded)
    (sameIds : Site.SameIds mine site other (.operate operation))
    (indifferent : Site.Indifferent mine username site other (.operate operation)) :
    (step environment site.world operation).db.Alike mine
      (step environment other.world operation).db := by
  cases operation with
  | dataLoader lostKeys => exact dataLoader_alike alike loaded otherLoaded lostKeys
  | connectSettingRepeater remotePcDto => exact connect_alike alike remotePcDto
  | disAssignRemotePc reconnectId =>
      exact disAssign_alike alike reconnectId (indifferent.released reconnectId rfl)
  | registerRemotePcApi registerRemotePcDto =>
      exact register_alike alike fun group named inside =>
        ⟨sameIds _ rfl trivial group named inside,
          indifferent.numbered _ rfl trivial group named inside⟩
  | registerRemotePcWeb registerRemotePcDto =>
      exact register_alike alike fun group named inside =>
        ⟨sameIds _ rfl trivial group named inside,
          indifferent.numbered _ rfl trivial group named inside⟩
  | processMessage now message => exact processMessage_alike alike now message
  | deleteRemotePc user id => exact deletePc_alike alike user id
  | createGroup groupName => exact transact_done_alike alike (alike.registerGroup groupName)
  | deleteGroup groupId => exact transact_done_alike alike (alike.deleteGroup groupId)
  | createUser user =>
      exact transact_done_alike alike (alike.registerUser environment.encodePassword user)
  | deleteUser memberId => exact transact_done_alike alike (alike.deleteUser memberId)
  | assignGroup assignGroupDto => exact transact_done_alike alike (alike.assignGroup assignGroupDto)
  | disassignGroup memberId groupId =>
      exact transact_done_alike alike (alike.disassignGroup memberId groupId)
  | processChangePassword changePassword user =>
      apply transact_alike alike
      exact (alike.processChangePassword environment changePassword user).bind
        fun _ _ changed => changed.2
  | _ => exact alike_of_unwritten alike (by simp [Operation.writes])

omit [DecidablePred mine] in
/-- The groups a page is made from are among those of the user. -/
theorem Database.GroupsAmong.inGroup {db : Database} (among : db.GroupsAmong mine username)
    {group : Long} (inside : db.InGroup username group) : mine group := by
  obtain ⟨member, known, assigned⟩ := inside
  obtain ⟨memberGroup, listed⟩ := List.exists_mem_of_ne_nil _ assigned
  simp only [Database.findByMemberAndGroup, List.mem_filter, decide_eq_true_eq] at listed
  obtain ⟨stored, ofMember, inGroup⟩ := listed
  exact inGroup ▸ among memberGroup stored member known ofMember

/-- The answer of a transaction that only reads. -/
theorem transact_answer (world : World) (computation : Except Exception Reply) :
    (transact world do
      let reply ← computation
      pure (reply, world.db)).1 = computation := by
  cases computation <;> rfl

/-- A page of the user shows the same in both. -/
theorem page_eq (alike : site.world.db.Alike mine other.world.db)
    (among : site.world.db.GroupsAmong mine username)
    (indifferent : Site.Indifferent mine username site other (.operate operation))
    (page : operation.isPageOf username = true) :
    (perform environment site.world operation).1 =
      (perform environment other.world operation).1 := by
  cases operation with
  | showRemotePcs user selectedGroupName =>
      obtain rfl : user.username = username := of_decide_eq_true page
      refine (transact_answer site.world _).trans (Eq.trans ?_ (transact_answer other.world _).symm)
      exact alike.showRemotePcs (fun group inside => among.inGroup inside) selectedGroupName
  | showViewer user id =>
      obtain rfl : user.username = username := of_decide_eq_true page
      refine (transact_answer site.world _).trans (Eq.trans ?_ (transact_answer other.world _).symm)
      exact alike.showViewer (fun group inside => among.inGroup inside)
        (indifferent.viewed user id rfl rfl)
  | _ => cases page

/-- Without an open session, no message reaches the user. -/
theorem unheard_eq_nil (silent : ¬ site.Listening username) (updates : List StatusUpdate) :
    (updates.flatMap site.sendStatusUpdate).filter (Received.reaches username) = [] := by
  refine List.filter_eq_nil_iff.mpr fun received sent => ?_
  obtain ⟨update, -, delivered⟩ := List.mem_flatMap.mp sent
  obtain ⟨session, opened, rfl⟩ := List.mem_map.mp delivered
  exact fun reaches => silent ⟨session, opened, of_decide_eq_true reaches⟩

/-- The message of an event tells no more than the id and the assignment. -/
theorem statusUpdate_afterEvent {now : Date} {evNum : Int} {remotePc changed : RemotePc}
    (valid : evNum ∈ validNumbers) (sameId : remotePc.id = changed.id)
    (sameAssignment : remotePc.assignedAt = changed.assignedAt) :
    (afterEvent now evNum remotePc).statusUpdate = (afterEvent now evNum changed).statusUpdate := by
  have sameStatus : MessageService.statusAfter evNum remotePc =
      MessageService.statusAfter evNum changed := by
    simp only [validNumbers, List.mem_cons, List.not_mem_nil, or_false] at valid
    rcases valid with rfl | rfl | rfl | rfl
    · rfl
    · rfl
    · rfl
    · simp only [MessageService.statusAfter, sameAssignment]
  simp only [RemotePc.statusUpdate, afterEvent, sameId, sameStatus, sameAssignment]

/-- The messages that reach the user are the same in both. -/
theorem messages_eq (sessions : site.sessions = other.sessions)
    (indifferent : Site.Indifferent mine username site other (.operate operation)) :
    ((operation.sent environment site.world).flatMap site.sendStatusUpdate).filter
        (Received.reaches username) =
      ((operation.sent environment other.world).flatMap other.sendStatusUpdate).filter
        (Received.reaches username) := by
  have sends : site.sendStatusUpdate = other.sendStatusUpdate := by
    unfold Site.sendStatusUpdate
    rw [sessions]
  by_cases listening : site.Listening username
  · suffices same : operation.sent environment site.world =
        operation.sent environment other.world by rw [same, sends]
    by_cases event : ∃ now message, operation = .processMessage now message
    · obtain ⟨now, message, rfl⟩ := event
      have heard := indifferent.heard now message rfl listening
      cases concerned : site.world.db.concerned message with
      | none =>
          rw [concerned] at heard
          have unconcerned := Option.map_eq_none_iff.mp heard.symm
          simp only [Operation.sent, processMessage_unconcerned concerned,
            processMessage_unconcerned unconcerned, List.drop_length]
      | some remotePc =>
          rw [concerned] at heard
          obtain ⟨changed, concernedToo, alike⟩ := Option.map_eq_some_iff.mp heard.symm
          obtain ⟨sameId, sameAssignment⟩ := Prod.mk.inj alike
          obtain ⟨eventMessage, parsed, valid, -, sent, -⟩ :=
            @processMessage_concerned environment site.world now message remotePc concerned
          obtain ⟨_, parsedToo, -, -, sentToo, -⟩ :=
            @processMessage_concerned environment other.world now message changed concernedToo
          cases parsed.symm.trans parsedToo
          rw [sent, sentToo, statusUpdate_afterEvent valid sameId.symm sameAssignment.symm]
    · have quiet (world : World) : operation.sent environment world = [] :=
        sent_eq_nil fun now message same => event ⟨now, message, same⟩
      rw [quiet, quiet]
  · have silentToo : ¬ other.Listening username := by
      rintro ⟨session, opened, named⟩
      exact listening ⟨session, sessions ▸ opened, named⟩
    rw [unheard_eq_nil listening, unheard_eq_nil silentToo]

/-! ### Two runs of the site -/

/-- What the application keeps, whatever ids are given to no PC. -/
structure Site.Sound (site : Site) : Prop where
  intact : Intact site.world.db
  basePc : ∃ remotePc ∈ site.world.db.remotePc.rows, IsBasePc remotePc

/-- A sound site is loaded. -/
theorem Site.Sound.loaded (sound : site.Sound) : site.world.db.Loaded where
  base := sound.intact.baseGroup
  admin := by
    obtain ⟨admin, present, -, named⟩ := sound.intact.alone.present
    exact ⟨admin, present, named⟩
  basePc := by
    obtain ⟨basePc, present, -, lowest, -⟩ := sound.basePc
    exact ⟨basePc, present, lowest⟩

theorem Site.sound_start (environment : Environment) : (Site.start environment).Sound where
  intact := intact_initial environment
  basePc := exists_basePc_initial environment

/-- Each action keeps a site sound. -/
theorem Site.Sound.step (sound : site.Sound) : (Site.step environment site action).Sound := by
  cases action with
  | operate operation => exact ⟨sound.intact.step sound.basePc, exists_basePc_step sound.basePc⟩
  | afterConnectionEstablished session => exact ⟨sound.intact, sound.basePc⟩
  | afterConnectionClosed session => exact ⟨sound.intact, sound.basePc⟩
  | skipIds count =>
      obtain ⟨alone, baseGroup, groupNames, repeaterIds, referring, memberships⟩ := sound.intact
      exact ⟨⟨⟨alone.present, alone.only⟩, baseGroup, groupNames, repeaterIds,
        ⟨referring.members, referring.groups, referring.pcGroups⟩, memberships⟩,
        sound.basePc⟩

/-- Two sites that are the same to the members of the groups. -/
structure Site.Similar (mine : Long → Prop) [DecidablePred mine] (site other : Site) : Prop where
  alike : site.world.db.Alike mine other.world.db
  sessions : site.sessions = other.sessions
  sound : site.Sound
  otherSound : other.Sound

/-- Similarity goes both ways. -/
theorem Site.Similar.symm (similar : site.Similar mine other) : other.Similar mine site where
  alike := similar.alike.symm
  sessions := similar.sessions.symm
  sound := similar.otherSound
  otherSound := similar.sound

theorem Site.receive_operate : site.receive environment username (.operate operation) =
    (if operation.isPageOf username then
      [.page (perform environment site.world operation).1] else []) ++
    ((operation.sent environment site.world).flatMap site.sendStatusUpdate).filter
      (Received.reaches username) := rfl

omit [DecidablePred mine] in
/-- A user receives nothing of what one run does alone, unheard. -/
theorem receive_alone (alone : site.Alone mine action) (unheard : site.Unheard username action) :
    site.receive environment username action = [] := by
  cases action with
  | operate operation =>
      have noPage : operation.isPageOf username = false := by
        cases operation with
        | showRemotePcs user selectedGroupName => exact alone.elim
        | showViewer user id => exact alone.elim
        | _ => rfl
      rw [Site.receive_operate, noPage]
      by_cases event : ∃ now message, operation = .processMessage now message
      · obtain ⟨now, message, rfl⟩ := event
        cases concerned : site.world.db.concerned message with
        | none =>
            simp only [Operation.sent, processMessage_unconcerned concerned, List.drop_length]
            rfl
        | some remotePc =>
            exact unheard_eq_nil (unheard now message rfl (concerned.trans_ne nofun)) _
      · rw [sent_eq_nil fun now message same => event ⟨now, message, same⟩]
        rfl
  | _ => rfl

/-- An action on one side alone that touches nothing of the user keeps the sites similar. -/
theorem similar_alone (similar : site.Similar mine other) (alone : site.Alone mine action) :
    (Site.step environment site action).Similar mine other where
  alike := by
    cases action with
    | operate operation => exact (alike_step_foreign alone).trans similar.alike
    | skipIds count => exact { similar.alike with }
    | _ => exact alone.elim
  sessions := by
    cases action with
    | operate operation => exact similar.sessions
    | skipIds count => exact similar.sessions
    | _ => exact alone.elim
  sound := similar.sound.step
  otherSound := similar.otherSound

/-- An action on both sides that gives the same ids and is indifferent keeps them similar. -/
theorem similar_step (similar : site.Similar mine other)
    (sameIds : Site.SameIds mine site other action)
    (indifferent : Site.Indifferent mine username site other action) :
    (Site.step environment site action).Similar mine (Site.step environment other action) where
  alike := by
    cases action with
    | operate operation =>
        exact alike_step similar.alike similar.sound.loaded similar.otherSound.loaded sameIds
          indifferent
    | _ => exact { similar.alike with }
  sessions := by
    cases action with
    | afterConnectionEstablished session => exact congrArg (· ++ [session]) similar.sessions
    | afterConnectionClosed session => exact congrArg (·.erase session) similar.sessions
    | _ => exact similar.sessions
  sound := similar.sound.step
  otherSound := similar.otherSound.step

/-- The user is sent the same on both sides. -/
theorem receive_eq (similar : site.Similar mine other)
    (indifferent : Site.Indifferent mine username site other action)
    (among : site.world.db.GroupsAmong mine username) :
    site.receive environment username action = other.receive environment username action := by
  cases action with
  | operate operation =>
      have messages := @messages_eq mine _ username environment operation site other
        similar.sessions indifferent
      rw [Site.receive_operate, Site.receive_operate, messages]
      by_cases page : operation.isPageOf username = true
      · rw [page_eq similar.alike among indifferent page]
      · simp only [page, Bool.false_eq_true, ↓reduceIte]
  | _ => rfl

variable (mine username environment) in
/-- Runs that differ outside the groups of the user, and differ where he cannot
tell it. -/
theorem unwinding : TwoRuns.Unwinding (Site.seenBy environment username)
    (fun site action => site.Alone mine action ∧ site.Unheard username action)
    (fun site other action => (Site.SameIds mine site other action ∧
      Site.Indifferent mine username site other action) ∧ site.world.db.GroupsAmong mine username)
    (Site.Similar mine) where
  symm _ _ similar := similar.symm
  hidden _ _ _ similar alone := ⟨receive_alone alone.1 alone.2, similar_alone similar alone.1⟩
  matched _ _ _ similar shared :=
    ⟨receive_eq similar shared.1.2 shared.2, similar_step similar shared.1.1 shared.1.2⟩

end Shared

/-- Kim joins the laboratory. -/
def kimJoinsLab : List SiteAction :=
  [.operate (.createGroup (some "Lab")),
    .operate (.createUser { username := some "kim", password := some "secret"
                            passwordConfirm := some "secret" }),
    .operate (.assignGroup { selectedGroupId := some 2, selectedUserId := some 2 })]

def kimSession : WebSocketSession where
  user := kim
  number := 1

/-- A PC comes to the base group. -/
def registerInBase : Operation :=
  .registerRemotePcApi
    { accessPassword := some "1111", remotePcName := some "PC-9", groupName := some "BaseGroup" }

end MegaVnc
