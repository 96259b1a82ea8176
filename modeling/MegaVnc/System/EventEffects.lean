import MegaVnc.System.Application

/-! # The three effects of an event

The message to the browsers is sent first, the row of the PC is saved in one
transaction, and the access log in another. The store can refuse either write,
for a reason of its own or because the column of the address does not take it.
-/

namespace MegaVnc

open Relational Fallible

namespace MessageService

/-- A write of an event that the store refuses whatever is written. -/
inductive EventFault where
  | rowSave (exception : Exception)
  | accessLog (exception : Exception)
deriving DecidableEq

/-- The status the access log is told: that of the status change, except when
the session of an unassigned PC ends. -/
def loggedStatus (evNum : Int) : Status :=
  match evNum with
  | 3 => .offline
  | 4 => .active
  | _ => .standby

/-- The address the access log is told. -/
def loggedIp (eventMessage : EventMessage) : Option String :=
  if eventMessage.evNum = 4 then eventMessage.svrIp else eventMessage.ip

/-- The name of the PC's group in the access log. -/
def loggedGroup (db : Database) (remotePc : RemotePc) : Option String :=
  match db.segment.findById remotePc.group with
  | none => some "존재하지 않는 그룹"
  | some group => group.groupName

/-- The log row of an event. -/
def eventLog (db : Database) (now : Date) (eventMessage : EventMessage) (remotePc : RemotePc) :
    AccessLogs where
  timestamp := now
  groupName := loggedGroup db remotePc
  pcName := remotePc.name
  division := (loggedStatus eventMessage.evNum).toValue
  reconnectId := remotePc.reconnectId
  ip := loggedIp eventMessage

/-- The push to the browsers goes first; the save may fail after it. -/
def setRemotePcStatusUnder (fault : Option EventFault) (world : World) (now : Date)
    (remotePc : RemotePc) (status : Status) : Except Exception RemotePc × World :=
  match fault with
  | some (.rowSave exception) =>
      (.error exception,
        world.sendStatusUpdate (RemotePcService.applyStatus now status remotePc).statusUpdate)
  | _ => RemotePcService.setRemotePcStatus world now remotePc status

/-- The insert of the log row, which may fail. -/
def saveAccessLogUnder (fault : Option EventFault) (db : Database) (now : Date)
    (remotePc : RemotePc) (division : String) (ip : Option String) : Except Exception Database :=
  match fault with
  | some (.accessLog exception) => .error exception
  | _ => LogService.saveAccessLog db now remotePc division ip

/-- The two calls that every case of the switch makes, one after the other. -/
def setStatusAndLogUnder (fault : Option EventFault) (world : World) (now : Date)
    (remotePc : RemotePc) (status : Status) (division : String) (ip : Option String) :
    Except Exception Unit × World :=
  match setRemotePcStatusUnder fault world now remotePc status with
  | (.error exception, world) => (.error exception, world)
  | (.ok remotePc, world) =>
      match saveAccessLogUnder fault world.db now remotePc division ip with
      | .error exception => (.error exception, world)
      | .ok db => (.ok (), world.withDb db)

/-- The switch over the events of a PC, with what each branch hands on. -/
def handlePcEventUnder (fault : Option EventFault) (world : World) (now : Date)
    (eventMessage : EventMessage) (remotePc : RemotePc) : Except Exception Unit × World :=
  setStatusAndLogUnder fault world now remotePc (statusAfter eventMessage.evNum remotePc)
    (loggedStatus eventMessage.evNum).toValue (loggedIp eventMessage)

/-- `processMessage` when a write can be refused. -/
def processMessageUnder (fault : Option EventFault) (world : World) (now : Date)
    (message : String) : Except Exception Unit × World :=
  match parseMessage message with
  | .error exception => (.error exception, world)
  | .ok eventMessage =>
      if eventMessage.evNum ∈ validNumbers then
        match world.db.findByRepeaterId eventMessage.getRepeaterId with
        | none => (.error (.remotePc .pcNotFound ""), world)
        | some remotePc => handlePcEventUnder fault world now eventMessage remotePc
      else (.ok (), world)

/-- No PC row, no access log row and no subscriber has noticed anything. -/
structure Untouched (world next : World) : Prop where
  rows : next.db.remotePc.rows = world.db.remotePc.rows
  accessLogs : next.db.accessLogs = world.db.accessLogs
  broadcasts : next.broadcasts = world.broadcasts

/-- The status change, its log row and its message have all happened. -/
structure Recorded (now : Date) (eventMessage : EventMessage) (remotePc : RemotePc)
    (world next : World) : Prop where
  row : next.db.remotePc.rows =
    Table.replace world.db.remotePc.rows (afterEvent now eventMessage.evNum remotePc)
  accessLogs : ∃ kept ∈ (eventLog world.db now eventMessage remotePc).fit,
    next.db.accessLogs = world.db.accessLogs ++ [kept]
  broadcasts : next.broadcasts =
    world.broadcasts ++ [(afterEvent now eventMessage.evNum remotePc).statusUpdate]

/-- A message that is refused leaves no trace; an event that is accepted leaves
all of its traces. -/
structure AllOrNothing (fault : Option EventFault) (world : World) (now : Date)
    (message : String) : Prop where
  nothing : ∀ exception, (processMessageUnder fault world now message).1 = .error exception →
    Untouched world (processMessageUnder fault world now message).2
  all : (processMessageUnder fault world now message).1 = .ok () →
    ∀ eventMessage, parseMessage message = .ok eventMessage →
      eventMessage.evNum ∈ validNumbers →
      ∃ remotePc, world.db.findByRepeaterId eventMessage.getRepeaterId = some remotePc ∧
        Recorded now eventMessage remotePc world (processMessageUnder fault world now message).2

variable {fault : Option EventFault} {world : World} {now : Date} {message : String}
  {eventMessage : EventMessage} {remotePc : RemotePc}

/-! ### Without faults it is the code -/

theorem setStatusAndLogUnder_none (world : World) (now : Date) (remotePc : RemotePc)
    (status : Status) (division : String) (ip : Option String) :
    setStatusAndLogUnder none world now remotePc status division ip =
      setStatusAndLog world now remotePc status division ip := rfl

theorem mem_validNumbers {evNum : Int} :
    evNum ∈ validNumbers ↔ evNum = 2 ∨ evNum = 3 ∨ evNum = 4 ∨ evNum = 5 := by
  simp only [validNumbers, List.mem_cons, List.not_mem_nil, or_false]

/-- Each branch of the switch hands on the values of its event. -/
theorem handlePcEventUnder_none (world : World) (now : Date) (remotePc : RemotePc)
    (concerned : eventMessage.evNum ∈ validNumbers) :
    handlePcEventUnder none world now eventMessage remotePc =
      handlePcEvent world now eventMessage remotePc := by
  rw [handlePcEventUnder, setStatusAndLogUnder_none]
  unfold handlePcEvent statusAfter loggedStatus loggedIp
  rcases mem_validNumbers.mp concerned with number | number | number | number
  · simp [number]
  · simp [number]
  · simp [number]
  · by_cases unassigned : remotePc.assignedAt = none <;> simp [number, unassigned]

/-- Without a fault a message is processed as the service does it. -/
theorem processMessageUnder_none (world : World) (now : Date) (message : String) :
    processMessageUnder none world now message = processMessage world now message := by
  unfold processMessageUnder processMessage handleEvent
  cases parseMessage message with
  | error exception => rfl
  | ok eventMessage =>
      dsimp only
      by_cases concerned : eventMessage.evNum ∈ validNumbers
      · rw [if_pos concerned, if_pos concerned]
        cases world.db.findByRepeaterId eventMessage.getRepeaterId with
        | none => rfl
        | some remotePc =>
            exact handlePcEventUnder_none world now remotePc concerned
      · rw [if_neg concerned, if_neg concerned]

/-! ### What each write leaves -/

/-- The status an event sets assigns the PC exactly when its server connects. -/
theorem applyStatus_statusAfter (now : Date) (remotePc : RemotePc)
    (concerned : eventMessage.evNum ∈ validNumbers) :
    RemotePcService.applyStatus now (statusAfter eventMessage.evNum remotePc) remotePc =
      afterEvent now eventMessage.evNum remotePc := by
  have assigns : (remotePc.assignedAt = none ∧
      statusAfter eventMessage.evNum remotePc = .standby) ↔
        (remotePc.assignedAt = none ∧ eventMessage.evNum = 2) := by
    refine and_congr_right fun unassigned => ?_
    rcases mem_validNumbers.mp concerned with number | number | number | number
    all_goals simp [statusAfter, number, unassigned]
  rw [RemotePcService.applyStatus_eq]
  simp only [afterEvent, assigns]

/-- The row an event writes fits in the place of the row it has read. -/
theorem exists_saveRemotePc (found : remotePc ∈ world.db.remotePc.rows) :
    ∃ after : Table RemotePc,
      world.db.saveRemotePc (afterEvent now eventMessage.evNum remotePc) =
        .ok { world.db with remotePc := after } ∧
      after.rows = Table.replace world.db.remotePc.rows
        (afterEvent now eventMessage.evNum remotePc) := by
  obtain ⟨name, accessPassword, reconnectId⟩ :=
    fit_remotePc_eq_self.mp (world.db.remotePc.rows_fit remotePc found)
  have fits : fit (afterEvent now eventMessage.evNum remotePc) =
      some (afterEvent now eventMessage.evNum remotePc) :=
    fit_remotePc_eq_self.mpr ⟨name, accessPassword, reconnectId⟩
  have sameId : remotePc.id = (afterEvent now eventMessage.evNum remotePc).id := rfl
  obtain ⟨next, written⟩ := Database.updateRemotePc_of_mem found sameId rfl fits
  obtain ⟨kept, keeps, after, rfl, rows, -⟩ := Database.updateRemotePc_eq_ok written
  cases fits.symm.trans keeps
  exact ⟨after, (Database.saveRemotePc_of_mem found sameId).trans written, rows⟩

/-- The name of a group is kept as it is wherever it is copied. -/
theorem nullableVarchar_loggedGroup (db : Database) (remotePc : RemotePc) :
    nullableVarchar (loggedGroup db remotePc) = some (loggedGroup db remotePc) := by
  unfold loggedGroup
  split
  · decide
  · next group found =>
      obtain ⟨groupName, keeps, same⟩ := fit_group_eq_some.mp
        (db.segment.rows_fit group (Table.findById_eq_some.mp found).1)
      exact (congrArg Group.groupName same) ▸ keeps

/-- Of the columns of the log row only that of the address can refuse its value or cut
it. -/
theorem eventLog_fit (found : remotePc ∈ world.db.remotePc.rows) :
    (eventLog world.db now eventMessage remotePc).fit =
      (nullableVarchar (loggedIp eventMessage)).map fun ip =>
        { eventLog world.db now eventMessage remotePc with ip := ip } := by
  obtain ⟨name, -, reconnectId⟩ :=
    fit_remotePc_eq_self.mp (world.db.remotePc.rows_fit remotePc found)
  have division : varchar (loggedStatus eventMessage.evNum).toValue =
      some (loggedStatus eventMessage.evNum).toValue := by
    cases loggedStatus eventMessage.evNum <;> decide
  simp only [AccessLogs.fit, eventLog, nullableVarchar_loggedGroup, name, division, reconnectId,
    Option.bind_eq_bind, Option.bind_some]
  cases nullableVarchar (loggedIp eventMessage) <;> rfl

theorem saveAccessLog_afterEvent (after : Table RemotePc) :
    LogService.saveAccessLog { world.db with remotePc := after } now
        (afterEvent now eventMessage.evNum remotePc)
        (loggedStatus eventMessage.evNum).toValue (loggedIp eventMessage) =
      Database.saveAccessLogs { world.db with remotePc := after }
        (eventLog world.db now eventMessage remotePc) := rfl

/-- The message is sent whatever happens to the two writes. -/
theorem setStatusAndLogUnder_broadcasts (fault : Option EventFault) (world : World) (now : Date)
    (remotePc : RemotePc) (status : Status) (division : String) (ip : Option String) :
    (setStatusAndLogUnder fault world now remotePc status division ip).2.broadcasts =
      world.broadcasts ++ [(RemotePcService.applyStatus now status remotePc).statusUpdate] := by
  have plain := setStatusAndLog_broadcasts world now remotePc status division ip
  rcases fault with _ | ⟨exception⟩ | ⟨exception⟩
  · exact plain
  · rfl
  · rw [← plain]
    simp only [setStatusAndLogUnder, setRemotePcStatusUnder, saveAccessLogUnder, setStatusAndLog]
    cases RemotePcService.setRemotePcStatus world now remotePc status with
    | mk outcome next =>
        cases outcome with
        | error other => rfl
        | ok changed =>
            dsimp only
            split <;> rfl

/-- An event of the switch pushes the new status whatever fails afterwards. -/
theorem handlePcEventUnder_broadcasts (concerned : eventMessage.evNum ∈ validNumbers) :
    (handlePcEventUnder fault world now eventMessage remotePc).2.broadcasts =
      world.broadcasts ++ [(afterEvent now eventMessage.evNum remotePc).statusUpdate] := by
  rw [handlePcEventUnder, setStatusAndLogUnder_broadcasts, applyStatus_statusAfter now remotePc
    concerned]

/-- When no write is refused, an event of a stored PC is recorded. -/
theorem handlePcEventUnder_none_of_fits (found : remotePc ∈ world.db.remotePc.rows)
    (concerned : eventMessage.evNum ∈ validNumbers)
    {ip : Option String} (fits : nullableVarchar (loggedIp eventMessage) = some ip) :
    (handlePcEventUnder none world now eventMessage remotePc).1 = .ok () ∧
      Recorded now eventMessage remotePc world
        (handlePcEventUnder none world now eventMessage remotePc).2 := by
  obtain ⟨after, saved, rows⟩ := @exists_saveRemotePc world now eventMessage remotePc found
  have changed := @applyStatus_statusAfter eventMessage now remotePc concerned
  have stored : (eventLog world.db now eventMessage remotePc).fit =
      some { eventLog world.db now eventMessage remotePc with ip := ip } := by
    rw [eventLog_fit found, fits, Option.map_some]
  have logged : Database.saveAccessLogs { world.db with remotePc := after }
      (eventLog world.db now eventMessage remotePc) =
        .ok { world.db with
          remotePc := after
          accessLogs := world.db.accessLogs ++
            [{ eventLog world.db now eventMessage remotePc with ip := ip }] } := by
    simp only [Database.saveAccessLogs, stored]
    rfl
  have broadcast :=
    @handlePcEventUnder_broadcasts none world now eventMessage remotePc concerned
  have outcome : handlePcEventUnder none world now eventMessage remotePc =
      (.ok (), { world with
        db := { world.db with
          remotePc := after
          accessLogs := world.db.accessLogs ++
            [{ eventLog world.db now eventMessage remotePc with ip := ip }] }
        broadcasts :=
          (handlePcEventUnder none world now eventMessage remotePc).2.broadcasts }) := by
    simp only [handlePcEventUnder, setStatusAndLogUnder_none, setStatusAndLog,
      RemotePcService.setRemotePcStatus, changed, World.sendStatusUpdate_db, saved,
      World.withDb_db, saveAccessLog_afterEvent, logged]
    rfl
  rw [outcome]
  exact ⟨rfl, rows, ⟨_, stored, rfl⟩, broadcast⟩

/-- When a write is refused, the event fails after its message has been sent,
and nothing is logged. -/
theorem handlePcEventUnder_refused (found : remotePc ∈ world.db.remotePc.rows)
    (concerned : eventMessage.evNum ∈ validNumbers)
    (refused : ¬ (fault = none ∧ (nullableVarchar (loggedIp eventMessage)).isSome = true)) :
    (∃ exception,
        (handlePcEventUnder fault world now eventMessage remotePc).1 = .error exception) ∧
      (handlePcEventUnder fault world now eventMessage remotePc).2.db.accessLogs =
        world.db.accessLogs := by
  obtain ⟨after, saved, -⟩ := @exists_saveRemotePc world now eventMessage remotePc found
  have changed := @applyStatus_statusAfter eventMessage now remotePc concerned
  rcases fault with _ | ⟨exception⟩ | ⟨exception⟩
  · have unfit : nullableVarchar (loggedIp eventMessage) = none :=
      Option.not_isSome_iff_eq_none.mp fun fits => refused ⟨rfl, fits⟩
    have logged : Database.saveAccessLogs { world.db with remotePc := after }
        (eventLog world.db now eventMessage remotePc) =
          .error .dataIntegrityViolationException := by
      simp only [Database.saveAccessLogs, eventLog_fit found, unfit]
      rfl
    simp only [handlePcEventUnder, setStatusAndLogUnder_none, setStatusAndLog,
      RemotePcService.setRemotePcStatus, changed, World.sendStatusUpdate_db, saved,
      World.withDb_db, saveAccessLog_afterEvent, logged]
    exact ⟨⟨_, rfl⟩, trivial⟩
  · exact ⟨⟨exception, rfl⟩, rfl⟩
  · simp only [handlePcEventUnder, setStatusAndLogUnder, setRemotePcStatusUnder,
      RemotePcService.setRemotePcStatus, changed, World.sendStatusUpdate_db, saved,
      saveAccessLogUnder, World.withDb_db]
    exact ⟨⟨exception, rfl⟩, trivial⟩

/-! ### All or nothing -/

/-- The message is an event of a stored PC. -/
def Concerns (db : Database) (message : String) (eventMessage : EventMessage)
    (remotePc : RemotePc) : Prop :=
  parseMessage message = .ok eventMessage ∧ eventMessage.evNum ∈ validNumbers ∧
    db.findByRepeaterId eventMessage.getRepeaterId = some remotePc

instance (db : Database) (message : String) (eventMessage : EventMessage) (remotePc : RemotePc) :
    Decidable (Concerns db message eventMessage remotePc) :=
  inferInstanceAs (Decidable (_ ∧ _ ∧ _))

/-- A message that concerns a PC is handled as an event of that PC. -/
theorem processMessageUnder_of_concerns
    (concerns : Concerns world.db message eventMessage remotePc) :
    processMessageUnder fault world now message =
      handlePcEventUnder fault world now eventMessage remotePc := by
  obtain ⟨parsed, concerned, found⟩ := concerns
  simp only [processMessageUnder, parsed, concerned, ↓reduceIte, found]

/-- Any other message does nothing, and is accepted only when no PC is meant. -/
theorem processMessageUnder_of_quiet
    (quiet : ∀ eventMessage remotePc, ¬ Concerns world.db message eventMessage remotePc) :
    (processMessageUnder fault world now message).2 = world ∧
      ((processMessageUnder fault world now message).1 = .ok () →
        ∀ eventMessage, parseMessage message = .ok eventMessage →
          eventMessage.evNum ∉ validNumbers) := by
  cases parsed : parseMessage message with
  | error exception =>
      simp only [processMessageUnder, parsed]
      exact ⟨trivial, fun _ _ read => by cases read⟩
  | ok eventMessage =>
      by_cases concerned : eventMessage.evNum ∈ validNumbers
      · have missing : world.db.findByRepeaterId eventMessage.getRepeaterId = none := by
          by_contra stored
          obtain ⟨remotePc, found⟩ := Option.ne_none_iff_exists'.mp stored
          exact quiet eventMessage remotePc ⟨parsed, concerned, found⟩
        simp only [processMessageUnder, parsed, concerned, ↓reduceIte, missing]
        exact ⟨trivial, fun accepted => by cases accepted⟩
      · simp only [processMessageUnder, parsed, concerned, ↓reduceIte]
        exact ⟨trivial, fun _ _ read => Except.ok.inj read ▸ concerned⟩

/-- A message that concerns no stored PC is all or nothing. -/
theorem allOrNothing_of_quiet
    (quiet : ∀ eventMessage remotePc, ¬ Concerns world.db message eventMessage remotePc) :
    AllOrNothing fault world now message := by
  obtain ⟨same, unconcerned⟩ :=
    @processMessageUnder_of_quiet fault world now message quiet
  constructor
  · intro exception failed
    rw [same]
    exact ⟨rfl, rfl, rfl⟩
  · intro accepted eventMessage parsed concerned
    exact absurd concerned (unconcerned accepted eventMessage parsed)

/-- An event of a stored PC is all or nothing exactly when no write is refused. -/
theorem allOrNothing_event_iff (concerns : Concerns world.db message eventMessage remotePc) :
    AllOrNothing fault world now message ↔
      fault = none ∧ (nullableVarchar (loggedIp eventMessage)).isSome = true := by
  obtain ⟨parsed, concerned, found⟩ := concerns
  have present := (Database.findByRepeaterId_eq_some.mp found).1
  have outcome := @processMessageUnder_of_concerns fault world now message eventMessage remotePc
    ⟨parsed, concerned, found⟩
  constructor
  · rintro ⟨nothing, -⟩
    by_contra refused
    obtain ⟨⟨exception, failed⟩, -⟩ := handlePcEventUnder_refused present concerned refused
    rw [outcome] at nothing
    -- The message of the failed event has been sent.
    have silent := (nothing exception failed).broadcasts
    rw [handlePcEventUnder_broadcasts concerned] at silent
    exact List.cons_ne_nil _ _ (List.append_right_eq_self.mp silent)
  · rintro ⟨rfl, takes⟩
    obtain ⟨ip, fits⟩ := Option.isSome_iff_exists.mp takes
    obtain ⟨accepted, recorded⟩ := handlePcEventUnder_none_of_fits present concerned fits
    constructor
    · intro exception failed
      rw [outcome, accepted] at failed
      cases failed
    · intro _ other read _
      cases parsed.symm.trans read
      rw [outcome]
      exact ⟨remotePc, found, recorded⟩

/-- A message is all or nothing if and only if it is no event of a stored PC,
or the store fails at neither of the event's writes and the column of the log takes the
address. -/
theorem allOrNothing_iff (fault : Option EventFault) (world : World) (now : Date)
    (message : String) :
    AllOrNothing fault world now message ↔
      ∀ eventMessage remotePc, Concerns world.db message eventMessage remotePc →
        fault = none ∧ (nullableVarchar (loggedIp eventMessage)).isSome = true := by
  by_cases quiet : ∀ eventMessage remotePc, ¬ Concerns world.db message eventMessage remotePc
  · exact iff_of_true (allOrNothing_of_quiet quiet) fun eventMessage remotePc concerns =>
      (quiet eventMessage remotePc concerns).elim
  · push Not at quiet
    obtain ⟨eventMessage, remotePc, concerns⟩ := quiet
    rw [allOrNothing_event_iff concerns]
    constructor
    · rintro writes other stored ⟨parsed, concerned, found⟩
      cases concerns.1.symm.trans parsed
      exact writes
    · intro writes
      exact writes eventMessage remotePc concerns

/-- The fields of SERVER_CONNECT for the base PC, with an address of 256
characters. -/
def longIpFields : List (String × List Char) :=
  [("EvMsgVer", "1".toList), ("EvNum", "2".toList), ("Time", "1704067200".toList),
    ("Pid", "4321".toList), ("TblInd", "0".toList), ("Code", "100".toList), ("Mode", "2".toList),
    ("Ip", List.replicate 256 '1')]

/-- A connect line whose address is longer than its column. -/
def longIpConnect : String :=
  .ofList (joinFields longIpFields)

/-- The line parses; only storing the address can fail. -/
theorem parseMessage_longIpConnect :
    ∃ eventMessage, parseMessage longIpConnect = .ok eventMessage ∧ eventMessage.evNum = 2 ∧
      eventMessage.getRepeaterId = 100 ∧
      eventMessage.ip = some (.ofList (List.replicate 256 '1')) := by
  have tokens := @putTokens_joinFields longIpFields (by decide) (by decide)
  simp only [parseMessage, longIpConnect, String.toList_ofList, tokens, ok_bind]
  exact ⟨_, rfl, rfl, rfl, rfl⟩

/-- The log row is refused after the PC has become standby and the browsers have
been told. -/
theorem longIpConnect_half_done :
    ¬ ∀ (fault : Option EventFault) (world : World) (now : Date) (message : String),
      AllOrNothing fault world now message := by
  intro whole
  obtain ⟨eventMessage, parsed, number, code, carried⟩ := parseMessage_longIpConnect
  have found : (Application.initial .dev).db.findByRepeaterId 100 = some Application.freshBasePc :=
    by decide +kernel
  have concerns : Concerns (Application.initial .dev).db longIpConnect eventMessage
      Application.freshBasePc :=
    ⟨parsed, mem_validNumbers.mpr (Or.inl number), code ▸ found⟩
  have takes := ((allOrNothing_event_iff concerns).mp
    (whole none (Application.initial .dev) 1704067200000 longIpConnect)).2
  have logged : loggedIp eventMessage = some (.ofList (List.replicate 256 '1')) := by
    rw [loggedIp, number, if_neg (by decide), carried]
  have refused : nullableVarchar (some (.ofList (List.replicate 256 '1'))) = none := by
    decide +kernel
  rw [logged, refused] at takes
  cases takes

end MessageService

end MegaVnc
