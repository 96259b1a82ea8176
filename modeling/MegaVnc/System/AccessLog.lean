import MegaVnc.System.DomainIntegrity
import MegaVnc.System.EventEffects

/-! # What the access log tells

Every event of a PC adds a row to the access log: its group and name, the status
as the division, and an address. Connections and session starts are logged as
they are; the end of a session is logged as standby and without an address.
-/

namespace MegaVnc

open Relational Fallible Application Transition
open MessageService (parseMessage processMessage processMessageUnder_none validNumbers
  mem_validNumbers Concerns Signals loggedStatus loggedIp loggedGroup eventLog statusAfter
  afterEvent Recorded handlePcEventUnder processMessageUnder_of_concerns
  handlePcEventUnder_none_of_fits handlePcEventUnder_refused)

/-- The address of the server a line carries: Ip when a server connects or
disconnects, SvrIp when a session starts or ends. -/
def EventMessage.serverIp (eventMessage : EventMessage) : Option String :=
  if eventMessage.evNum = 2 ∨ eventMessage.evNum = 3 then eventMessage.ip else eventMessage.svrIp

/-- The line is an event of the stored PC and carries the address of its kind. -/
structure WellFormed (db : Database) (message : String) (eventMessage : EventMessage)
    (remotePc : RemotePc) : Prop where
  concerns : Concerns db message eventMessage remotePc
  address : eventMessage.serverIp ≠ none

/-- The log row is about the PC. -/
def AccessLogs.About (db : Database) (remotePc : RemotePc) (accessLogs : AccessLogs) : Prop :=
  accessLogs.groupName = loggedGroup db remotePc ∧ accessLogs.pcName = remotePc.name

instance (db : Database) (remotePc : RemotePc) : DecidablePred (AccessLogs.About db remotePc) :=
  fun _ => inferInstanceAs (Decidable (_ ∧ _))

/-- The event adds one log row, which is about its PC and tells the status the
PC has now and the address of the line. -/
def Truthful (world : World) (now : Date) (message : String) (eventMessage : EventMessage)
    (remotePc : RemotePc) : Prop :=
  ∃ accessLogs, ∃ after ∈ (processMessage world now message).2.db.remotePc.rows,
    (processMessage world now message).2.db.accessLogs = world.db.accessLogs ++ [accessLogs] ∧
    accessLogs.About world.db remotePc ∧ after.SameIdentity remotePc ∧
    accessLogs.division = after.status.toValue ∧ accessLogs.ip = eventMessage.serverIp

/-- The last log row about the PC tells the status it has. -/
def LastTells (db : Database) (remotePc : RemotePc) : Prop :=
  ∃ accessLogs, (db.accessLogs.filter (AccessLogs.About db remotePc ·)).getLast? =
      some accessLogs ∧ accessLogs.division = remotePc.status.toValue

namespace Operation

/-- A well-formed event of a stored PC, other than the end of a session, whose
address is kept as it is. -/
def Reports (world : World) : Operation → Prop
  | .processMessage _ message => ∃ eventMessage remotePc,
      WellFormed world.db message eventMessage remotePc ∧ eventMessage.evNum ≠ 5 ∧
        nullableVarchar eventMessage.serverIp = some eventMessage.serverIp
  | _ => False

/-- An event of the PC with the repeaterId. -/
def EventOf (repeaterId : Long) : Operation → Prop
  | .processMessage _ message => ∃ evNum, Signals message evNum repeaterId
  | _ => False

end Operation

variable {environment : Environment} {world : World} {operations : List Operation}
  {now : Date} {message : String} {eventMessage : EventMessage} {remotePc other : RemotePc}
  {db : Database}

/-! ### The row an event adds -/

/-- The end of a session carries no Ip. -/
theorem ip_of_sessionEnd (parsed : parseMessage message = .ok eventMessage)
    (ended : eventMessage.evNum = 5) : eventMessage.ip = none := by
  obtain ⟨msgKv, -, read⟩ := bind_eq_ok.mp parsed
  obtain ⟨evNum, number, read⟩ := bind_eq_ok.mp read
  split at read
  · next connection =>
      simp only [MessageService.readConnectionEvent, bind_eq_ok, pure_eq_ok] at read
      obtain ⟨_, -, evNum', number', _, -, _, -, _, -, _, -, _, -, rfl⟩ := read
      cases number.symm.trans number'
      subst ended
      simp at connection
  · split at read
    · simp only [MessageService.readSessionEvent, bind_eq_ok, pure_eq_ok] at read
      obtain ⟨_, -, _, -, _, -, _, -, _, -, _, -, _, -, _, -, rfl⟩ := read
      rfl
    · split at read
      · simp only [MessageService.readStartEndEvent, bind_eq_ok, pure_eq_ok] at read
        obtain ⟨_, -, _, -, _, -, _, -, _, -, rfl⟩ := read
        rfl
      · cases read

/-- But for the end of a session, the address of the server is handed to the log. -/
theorem loggedIp_of_ne (concerned : eventMessage.evNum ∈ validNumbers)
    (running : eventMessage.evNum ≠ 5) : loggedIp eventMessage = eventMessage.serverIp := by
  unfold loggedIp EventMessage.serverIp
  rcases mem_validNumbers.mp concerned with number | number | number | number
  · simp [number]
  · simp [number]
  · simp [number]
  · exact absurd number running

/-- But for the end of a session, the log is told the status the event sets. -/
theorem loggedStatus_of_ne (remotePc : RemotePc) (concerned : eventMessage.evNum ∈ validNumbers)
    (running : eventMessage.evNum ≠ 5) :
    loggedStatus eventMessage.evNum = statusAfter eventMessage.evNum remotePc := by
  unfold loggedStatus statusAfter
  rcases mem_validNumbers.mp concerned with number | number | number | number
  · simp [number]
  · simp [number]
  · simp [number]
  · exact absurd number running

/-- An event whose address the column of the log takes is recorded. -/
theorem processMessage_recorded (concerns : Concerns world.db message eventMessage remotePc)
    {ip : Option String} (fits : nullableVarchar (loggedIp eventMessage) = some ip) :
    Recorded now eventMessage remotePc world (processMessage world now message).2 := by
  have present := (Database.findByRepeaterId_eq_some.mp concerns.2.2).1
  rw [← processMessageUnder_none, processMessageUnder_of_concerns concerns]
  exact (handlePcEventUnder_none_of_fits present concerns.2.1 fits).2

/-- Any other event leaves the log as it is. -/
theorem processMessage_unlogged (concerns : Concerns world.db message eventMessage remotePc)
    (refused : nullableVarchar (loggedIp eventMessage) = none) :
    (processMessage world now message).2.db.accessLogs = world.db.accessLogs := by
  have present := (Database.findByRepeaterId_eq_some.mp concerns.2.2).1
  rw [← processMessageUnder_none, processMessageUnder_of_concerns concerns]
  refine (handlePcEventUnder_refused present concerns.2.1 fun ⟨_, takes⟩ => ?_).2
  rw [refused] at takes
  cases takes

/-- The row that an event adds, with the address as its column keeps it. -/
theorem MessageService.Recorded.log {next : World}
    (recorded : Recorded now eventMessage remotePc world next)
    (present : remotePc ∈ world.db.remotePc.rows) {ip : Option String}
    (fits : nullableVarchar (loggedIp eventMessage) = some ip) :
    next.db.accessLogs = world.db.accessLogs ++
      [{ eventLog world.db now eventMessage remotePc with ip := ip }] := by
  obtain ⟨kept, keeps, added⟩ := recorded.accessLogs
  rw [Option.mem_def, eventLog_fit present, fits, Option.map_some] at keeps
  cases keeps
  exact added

/-- The PC is stored as the event leaves it. -/
theorem MessageService.Recorded.mem {next : World}
    (recorded : Recorded now eventMessage remotePc world next)
    (present : remotePc ∈ world.db.remotePc.rows) :
    afterEvent now eventMessage.evNum remotePc ∈ next.db.remotePc.rows := by
  rw [recorded.row]
  exact Table.mem_replace.mpr (Or.inr ⟨rfl, remotePc, present, rfl⟩)

/-- The log tells the truth about an event if and only if it is not the end of a
session and its address is kept as it is. -/
theorem truthful_iff (wellFormed : WellFormed world.db message eventMessage remotePc) :
    Truthful world now message eventMessage remotePc ↔
      eventMessage.evNum ≠ 5 ∧
        nullableVarchar eventMessage.serverIp = some eventMessage.serverIp := by
  obtain ⟨concerns, address⟩ := wellFormed
  have concerned := concerns.2.1
  have present := (Database.findByRepeaterId_eq_some.mp concerns.2.2).1
  constructor
  · rintro ⟨accessLogs, after, -, added, -, -, -, ip⟩
    have logged {keptIp : Option String}
        (fits : nullableVarchar (loggedIp eventMessage) = some keptIp) :
        accessLogs.ip = keptIp := by
      have recorded := @processMessage_recorded world now _ _ _ concerns _ fits
      have same := List.append_cancel_left (added.symm.trans (recorded.log present fits))
      exact congrArg AccessLogs.ip (List.cons.inj same).1
    have running : eventMessage.evNum ≠ 5 := by
      intro ended
      have noIp : loggedIp eventMessage = none := by
        rw [loggedIp, if_neg (by rw [ended]; decide), ip_of_sessionEnd concerns.1 ended]
      have fits : nullableVarchar (loggedIp eventMessage) = some none := by
        rw [noIp]
        rfl
      exact address (ip.symm.trans (logged fits))
    refine ⟨running, ?_⟩
    rw [← loggedIp_of_ne concerned running] at ip ⊢
    cases kept : nullableVarchar (loggedIp eventMessage) with
    | none =>
        have unlogged := @processMessage_unlogged world now _ _ _ concerns kept
        exact (List.cons_ne_nil _ _
          (List.append_right_eq_self.mp (added.symm.trans unlogged))).elim
    | some keptIp => rw [← logged kept, ip]
  · rintro ⟨running, fits⟩
    rw [← loggedIp_of_ne concerned running] at fits
    have recorded := @processMessage_recorded world now _ _ _ concerns _ fits
    refine ⟨_, _, recorded.mem present, recorded.log present fits, ⟨rfl, rfl⟩,
      ⟨rfl, rfl, rfl, rfl, rfl⟩, ?_, ?_⟩
    · exact congrArg Status.toValue (loggedStatus_of_ne remotePc concerned running)
    · exact loggedIp_of_ne concerned running

/-! ### The last row about a PC -/

/-- The rows of a PC that is alone in its group cannot be taken for those of another. -/
theorem Intact.eq_of_logged (intact : Intact db) (alone : AloneInGroup db remotePc)
    (present : remotePc ∈ db.remotePc.rows) (otherIn : other ∈ db.remotePc.rows)
    (sameGroup : loggedGroup db remotePc = loggedGroup db other)
    (sameName : remotePc.name = other.name) : remotePc = other := by
  obtain ⟨group, groupIn, named⟩ := intact.referring.pcGroups remotePc present
  obtain ⟨group', groupIn', named'⟩ := intact.referring.pcGroups other otherIn
  have found : db.segment.findById remotePc.group = some group :=
    Table.findById_eq_some.mpr ⟨groupIn, named⟩
  have found' : db.segment.findById other.group = some group' :=
    Table.findById_eq_some.mpr ⟨groupIn', named'⟩
  simp only [loggedGroup, found, found'] at sameGroup
  have groups : group = group' :=
    List.inj_on_of_nodup_map intact.groupNamesApart groupIn groupIn' sameGroup
  have groupIds : remotePc.group = other.group := named.symm.trans (groups ▸ named')
  exact (Table.eq_of_key_eq otherIn present (alone other otherIn sameName.symm groupIds.symm)).symm

/-- What is logged about a PC depends on its group and its name. -/
theorem about_congr {next : Database} (segment : next.segment = db.segment)
    (sameGroup : other.group = remotePc.group) (sameName : other.name = remotePc.name) :
    AccessLogs.About next other = AccessLogs.About db remotePc := by
  funext accessLogs
  simp only [AccessLogs.About, loggedGroup, segment, sameGroup, sameName]

/-- The row just added is the last one about its PC. -/
theorem lastTells_of_added {next : Database} {accessLogs : AccessLogs}
    (added : next.accessLogs = db.accessLogs ++ [accessLogs])
    (about : accessLogs.About next remotePc)
    (tells : accessLogs.division = remotePc.status.toValue) : LastTells next remotePc := by
  refine ⟨accessLogs, ?_, tells⟩
  rw [added, List.filter_append, List.filter_singleton, decide_eq_true about]
  exact List.getLast?_concat

/-- A row about another PC leaves the last one about a PC as it was. -/
theorem LastTells.of_added {next : Database} {accessLogs : AccessLogs}
    (tells : LastTells db remotePc) (added : next.accessLogs = db.accessLogs ++ [accessLogs])
    (segment : next.segment = db.segment) (apart : ¬ accessLogs.About db remotePc) :
    LastTells next remotePc := by
  obtain ⟨last, found, division⟩ := tells
  refine ⟨last, ?_, division⟩
  simp only [about_congr segment rfl rfl, added, List.filter_append, List.filter_singleton, apart,
    decide_false, cond_false, List.append_nil, found]

/-- What an event that is reported does to its PC, to the log and to the groups. -/
theorem Operation.Reports.recorded {operation : Operation} (reports : operation.Reports world) :
    ∃ now eventMessage, ∃ source ∈ world.db.remotePc.rows,
      (∀ repeaterId, operation.EventOf repeaterId → source.repeaterId = repeaterId) ∧
      (step environment world operation).db.remotePc.rows = Table.replace world.db.remotePc.rows
        (afterEvent now eventMessage.evNum source) ∧
      (step environment world operation).db.accessLogs =
        world.db.accessLogs ++ [eventLog world.db now eventMessage source] ∧
      (eventLog world.db now eventMessage source).division =
        (afterEvent now eventMessage.evNum source).status.toValue ∧
      (step environment world operation).db.segment = world.db.segment := by
  cases operation with
  | processMessage now message =>
      obtain ⟨eventMessage, source, ⟨concerns, -⟩, running, fits⟩ := reports
      have ⟨parsed, concerned, found⟩ := concerns
      obtain ⟨present, code⟩ := Database.findByRepeaterId_eq_some.mp found
      rw [← loggedIp_of_ne concerned running] at fits
      have recorded := @processMessage_recorded world now _ _ _ concerns _ fits
      refine ⟨now, eventMessage, source, present, ?_, recorded.row, recorded.log present fits,
        congrArg Status.toValue (loggedStatus_of_ne source concerned running), ?_⟩
      · rintro repeaterId ⟨evNum, other, otherParsed, -, sameCode, -⟩
        cases parsed.symm.trans otherParsed
        exact code.trans sameCode
      · exact @step_same environment world (.processMessage now message) .segment
          (by simp [Operation.writes])
  | _ => exact reports.elim

/-- Events rename no PC, so a PC that is alone in its group stays alone. -/
theorem Operation.Reports.aloneInGroup {operation : Operation} (reports : operation.Reports world)
    (alone : AloneInGroup world.db remotePc) :
    AloneInGroup (step environment world operation).db remotePc := by
  obtain ⟨now, eventMessage, source, present, -, rows, -⟩ :=
    @Operation.Reports.recorded environment world operation reports
  intro row rowIn sameName sameGroup
  rcases Table.mem_replace.mp (rows ▸ rowIn) with ⟨before, -⟩ | ⟨rfl, -⟩
  · exact alone row before sameName sameGroup
  · exact alone source present sameName sameGroup

/-- A PC stays stored. After an event that is reported, the last row about its PC tells
its status; that of another PC is as it was. -/
theorem Operation.Reports.lastTells {operation : Operation} (reports : operation.Reports world)
    (intact : Intact world.db) (alone : AloneInGroup world.db remotePc)
    (present : remotePc ∈ world.db.remotePc.rows) :
    ∃ row ∈ (step environment world operation).db.remotePc.rows, remotePc.SameIdentity row ∧
      (operation.EventOf remotePc.repeaterId ∨ LastTells world.db remotePc →
        LastTells (step environment world operation).db row) := by
  obtain ⟨now, eventMessage, source, sourceIn, eventOf, rows, added, tells, segment⟩ :=
    @Operation.Reports.recorded environment world operation reports
  by_cases same : remotePc = source
  · subst same
    have named : AccessLogs.About (step environment world operation).db
        (afterEvent now eventMessage.evNum remotePc) = AccessLogs.About world.db remotePc :=
      about_congr segment rfl rfl
    refine ⟨afterEvent now eventMessage.evNum remotePc,
      rows ▸ Table.mem_replace.mpr (Or.inr ⟨rfl, remotePc, present, rfl⟩),
      ⟨rfl, rfl, rfl, rfl, rfl⟩, fun _ => lastTells_of_added added ?_ tells⟩
    rw [named]
    exact ⟨rfl, rfl⟩
  · have different : remotePc.id ≠ source.id := fun sameId =>
      same (Table.eq_of_key_eq present sourceIn sameId)
    refine ⟨remotePc, rows ▸ Table.mem_replace.mpr (Or.inl ⟨present, different⟩),
      ⟨rfl, rfl, rfl, rfl, rfl⟩, fun shown => ?_⟩
    have told : LastTells world.db remotePc := shown.resolve_left fun event =>
      same (Table.eq_of_clash present sourceIn (clash_remotePc.mpr (eventOf _ event).symm))
    refine told.of_added added segment fun about => ?_
    exact same (intact.eq_of_logged alone present sourceIn about.1.symm about.2.symm)

/-- The access log tells the truth about a well-formed event if and only if it
is not the end of a session and its address is kept as it is; and after a run of such
events the last row about a PC, which no other PC of its group is named like, tells its
status. -/
theorem accessLog_truthful (reached : Application.Reachable environment world) :
    (∀ now message eventMessage remotePc, WellFormed world.db message eventMessage remotePc →
      (Truthful world now message eventMessage remotePc ↔
        eventMessage.evNum ≠ 5 ∧
          nullableVarchar eventMessage.serverIp = some eventMessage.serverIp)) ∧
      ∀ operations, Along (step environment) (fun world operation => operation.Reports world) world
          operations →
        ∀ remotePc ∈ world.db.remotePc.rows, AloneInGroup world.db remotePc →
          (∃ operation ∈ operations, operation.EventOf remotePc.repeaterId) →
          ∃ row ∈ (run (step environment) world operations).db.remotePc.rows,
            remotePc.SameIdentity row ∧
              LastTells (run (step environment) world operations).db row := by
  constructor
  · intro now message eventMessage remotePc wellFormed
    exact truthful_iff wellFormed
  · intro operations along remotePc present alone event
    have stored {world : World} {operation : Operation} {row : RemotePc}
        (reports : operation.Reports world) (intact : Intact world.db)
        (alone : AloneInGroup world.db remotePc) (rowIn : row ∈ world.db.remotePc.rows)
        (same : remotePc.SameIdentity row) :
        ∃ next ∈ (step environment world operation).db.remotePc.rows,
          remotePc.SameIdentity next ∧ (operation.EventOf remotePc.repeaterId ∨
            LastTells world.db row → LastTells (step environment world operation).db next) := by
      obtain ⟨next, nextIn, sameNext, tells⟩ :=
        reports.lastTells intact ((aloneInGroup_congr same).mp alone) rowIn
      exact ⟨next, nextIn, same.trans sameNext, same.2.1 ▸ tells⟩
    -- Every event meets a reachable state that stores the PC, alone in its group.
    have met : Along (step environment) (fun world operation => operation.Reports world ∧
        Intact world.db ∧ AloneInGroup world.db remotePc ∧
        ∃ row ∈ world.db.remotePc.rows, remotePc.SameIdentity row) world operations := by
      refine along.imp_of_invariant
        (fun world => Application.Reachable environment world ∧ AloneInGroup world.db remotePc ∧
          ∃ row ∈ world.db.remotePc.rows, remotePc.SameIdentity row)
        (fun _ operation reports ⟨reached, alone, row, rowIn, same⟩ => ?_)
        (fun _ _ reports ⟨reached, later⟩ => ⟨reports, reached.intact, later⟩)
        ⟨reached, alone, remotePc, present, rfl, rfl, rfl, rfl, rfl⟩
      obtain ⟨next, nextIn, sameNext, -⟩ := stored reports reached.intact alone rowIn same
      exact ⟨reached.run [operation], reports.aloneInGroup alone, next, nextIn, sameNext⟩
    refine met.run_established
      (fun world => ∃ row ∈ world.db.remotePc.rows,
        remotePc.SameIdentity row ∧ LastTells world.db row)
      (Operation.EventOf remotePc.repeaterId) ?_ ?_ event
    · rintro _ _ ⟨reports, intact, alone, row, rowIn, same⟩ mentioned
      obtain ⟨next, nextIn, sameNext, tells⟩ := stored reports intact alone rowIn same
      exact ⟨next, nextIn, sameNext, tells (Or.inl mentioned)⟩
    · rintro _ _ ⟨reports, intact, alone, -⟩ ⟨row, rowIn, same, told⟩
      obtain ⟨next, nextIn, sameNext, tells⟩ := stored reports intact alone rowIn same
      exact ⟨next, nextIn, sameNext, tells (Or.inr told)⟩

/-- What the SERVER_CONNECT of the base PC carries. -/
def baseServerConnectMessage : EventMessage where
  evMsgVer := 1
  evNum := 2
  time := 1704067200
  pid := 4321
  code := 100
  mode := 2
  ip := some "192.168.0.10"

theorem baseServerConnect_truthful :
    (Truthful (initial .dev) 1704067200000
        "EvMsgVer:1,EvNum:2,Time:1704067200,Pid:4321,TblInd:0,Code:100,Mode:2,Ip:192.168.0.10"
        baseServerConnectMessage freshBasePc ↔
      baseServerConnectMessage.evNum ≠ 5 ∧
        nullableVarchar baseServerConnectMessage.serverIp =
          some baseServerConnectMessage.serverIp) ∧
      ∃ row ∈ (run (step .dev) (initial .dev) [baseServerConnect]).db.remotePc.rows,
        freshBasePc.SameIdentity row ∧
          LastTells (run (step .dev) (initial .dev) [baseServerConnect]).db row := by
  have concerns : Concerns (initial .dev).db
      "EvMsgVer:1,EvNum:2,Time:1704067200,Pid:4321,TblInd:0,Code:100,Mode:2,Ip:192.168.0.10"
      baseServerConnectMessage freshBasePc := by decide +kernel
  have wellFormed : WellFormed (initial .dev).db _ baseServerConnectMessage freshBasePc :=
    ⟨concerns, by decide⟩
  obtain ⟨events, runs⟩ := @accessLog_truthful .dev (initial .dev) ⟨[], rfl⟩
  have present : freshBasePc ∈ (initial .dev).db.remotePc.rows := by decide +kernel
  have alone : AloneInGroup (initial .dev).db freshBasePc := by
    unfold AloneInGroup
    decide +kernel
  refine ⟨events _ _ _ _ wellFormed,
    runs [baseServerConnect] ⟨⟨_, _, wellFormed, by decide, by decide⟩, trivial⟩ _ present alone ?_⟩
  exact ⟨_, List.mem_singleton_self _, 2, baseServerConnectMessage, concerns.1, rfl, rfl,
    by decide⟩

/-- VIEWER_SERVER_SESSION_END of the base PC. -/
def baseSessionEndLine : String :=
  "EvMsgVer:1,EvNum:5,Time:1704067320,Pid:4321,SvrTblInd:0,VwrTblInd:0,Code:100,Mode:2," ++
    "SvrIp:192.168.0.10,VwrIp:192.168.0.20"

/-- The message of the end of a session of the PC with code 100. -/
def baseSessionEndMessage : EventMessage where
  evMsgVer := 1
  evNum := 5
  time := 1704067320
  pid := 4321
  code := 100
  mode := 2
  svrIp := some "192.168.0.10"
  vwrIp := some "192.168.0.20"

/-- A session of the unassigned base PC ends: the PC is offline, the log says
standby and names no address. -/
theorem sessionEnd_untold :
    ¬ ∀ (environment : Environment) (world : World), Application.Reachable environment world →
      ∀ now message eventMessage remotePc,
        WellFormed world.db message eventMessage remotePc →
          Truthful world now message eventMessage remotePc := by
  intro truthful
  have concerns : Concerns (initial .dev).db baseSessionEndLine baseSessionEndMessage
      freshBasePc := by decide +kernel
  have told := truthful .dev (initial .dev) ⟨[], rfl⟩ 1704067320000 baseSessionEndLine
    baseSessionEndMessage freshBasePc ⟨concerns, by decide⟩
  exact ((truthful_iff ⟨concerns, by decide⟩).mp told).1 rfl

end MegaVnc
