import MegaVnc.Service.RemotePcService
import MegaVnc.Tcp.EventMessage

/-! # Processing an event line

`processMessage` has no transaction of its own: it reads the PC, then
`setRemotePcStatus` and `saveAccessLog` each commit one. What a step has done
stays when a later one throws.
-/

namespace MegaVnc

open Relational Fallible

namespace LogService

/-- A log row names the PC and its group, or tells that the group is gone. -/
def saveAccessLog (db : Database) (now : Date) (remotePc : RemotePc) (division : String)
    (ip : Option String) : Except Exception Database :=
  let groupName := match db.segment.findById remotePc.group with
    | none => some "존재하지 않는 그룹"
    | some group => group.groupName
  db.saveAccessLogs
    { timestamp := now
      groupName := groupName
      pcName := remotePc.name
      division := division
      reconnectId := remotePc.reconnectId
      ip := ip }

end LogService

/-- The message that tells the state of the PC. -/
def RemotePc.statusUpdate (remotePc : RemotePc) : StatusUpdate where
  pcId := remotePc.id
  status := remotePc.status.toValue
  registeredAt := remotePc.assignedAt

namespace MessageService

/-- The numbers of the events that concern a PC. -/
def validNumbers : List Int := [2, 3, 4, 5]

/-- `setRemotePcStatus`, then the access log of the entity it changed. -/
def setStatusAndLog (world : World) (now : Date) (remotePc : RemotePc) (status : Status)
    (division : String) (ip : Option String) : Except Exception Unit × World :=
  match RemotePcService.setRemotePcStatus world now remotePc status with
  | (.error exception, world) => (.error exception, world)
  | (.ok remotePc, world) =>
      match LogService.saveAccessLog world.db now remotePc division ip with
      | .error exception => (.error exception, world)
      | .ok db => (.ok (), world.withDb db)

/-- The switch over the events of a PC. When a session ends, the application is
expected to have released the PC before, so an unassigned PC is taken offline. -/
def handlePcEvent (world : World) (now : Date) (eventMessage : EventMessage)
    (remotePc : RemotePc) : Except Exception Unit × World :=
  match eventMessage.evNum with
  | 2 => setStatusAndLog world now remotePc .standby Status.standby.toValue eventMessage.ip
  | 3 => setStatusAndLog world now remotePc .offline Status.offline.toValue eventMessage.ip
  | 4 => setStatusAndLog world now remotePc .active Status.active.toValue eventMessage.svrIp
  | 5 =>
      if remotePc.assignedAt = none then
        setStatusAndLog world now remotePc .offline Status.standby.toValue eventMessage.ip
      else
        setStatusAndLog world now remotePc .standby Status.standby.toValue eventMessage.ip
  | _ => (.ok (), world)

/-- The second half of `processMessage`. -/
def handleEvent (world : World) (now : Date) (eventMessage : EventMessage) :
    Except Exception Unit × World :=
  if eventMessage.evNum ∈ validNumbers then
    match world.db.findByRepeaterId eventMessage.getRepeaterId with
    | none => (.error (.remotePc .pcNotFound ""), world)
    | some remotePc => handlePcEvent world now eventMessage remotePc
  else (.ok (), world)

/-- A line of the repeater: first it is parsed, then the event is handled. -/
def processMessage (world : World) (now : Date) (message : String) :
    Except Exception Unit × World :=
  match parseMessage message with
  | .error exception => (.error exception, world)
  | .ok eventMessage => handleEvent world now eventMessage

/-! ### What an event does to the row of its PC -/

/-- The status an event leaves; it depends on the assignment only when a session
ends. -/
def statusAfter (evNum : Int) (remotePc : RemotePc) : Status :=
  match evNum with
  | 2 => .standby
  | 3 => .offline
  | 4 => .active
  | 5 => if remotePc.assignedAt = none then .offline else .standby
  | _ => remotePc.status

/-- The PC after an event. Only the connection of the server assigns it. -/
def afterEvent (now : Date) (evNum : Int) (remotePc : RemotePc) : RemotePc :=
  { remotePc with
    status := statusAfter evNum remotePc
    assignedAt := if remotePc.assignedAt = none ∧ evNum = 2 then some now
      else remotePc.assignedAt }

variable {world : World} {now : Date} {eventMessage : EventMessage} {remotePc stored : RemotePc}

/-- A log row is all that logging changes. -/
theorem saveAccessLog_eq_ok {db next : Database} {division : String} {ip : Option String}
    (logged : LogService.saveAccessLog db now remotePc division ip = .ok next) :
    ∃ accessLogs, next = { db with accessLogs := accessLogs } := by
  simp only [LogService.saveAccessLog, Database.saveAccessLogs, bind_eq_ok, pure_eq_ok] at logged
  obtain ⟨_, _, rfl⟩ := logged
  exact ⟨_, rfl⟩

/-- Whether the access log is written or not, the changed row is stored and
only the access log differs otherwise. -/
theorem setStatusAndLog_world {status : Status} {division : String} {ip : Option String}
    (present : stored ∈ world.db.remotePc.rows) (sameId : stored.id = remotePc.id)
    (sameRepeaterId : stored.repeaterId = remotePc.repeaterId)
    (fits : fit remotePc = some remotePc) :
    ∃ after accessLogs broadcasts,
      (setStatusAndLog world now remotePc status division ip).2 =
        { world with
          db := { world.db with remotePc := after, accessLogs := accessLogs }
          broadcasts := broadcasts } ∧
      after.rows = Table.replace world.db.remotePc.rows
        (RemotePcService.applyStatus now status remotePc) ∧
      after.nextKey = world.db.remotePc.nextKey := by
  have changed := RemotePcService.applyStatus_eq now status remotePc
  have idKept : stored.id = (RemotePcService.applyStatus now status remotePc).id := by
    rw [changed]
    exact sameId
  have repeaterIdKept :
      stored.repeaterId = (RemotePcService.applyStatus now status remotePc).repeaterId := by
    rw [changed]
    exact sameRepeaterId
  have kept := RemotePcService.fit_applyStatus now status fits
  obtain ⟨next, written⟩ := Database.updateRemotePc_of_mem present idKept repeaterIdKept kept
  have saved := (Database.saveRemotePc_of_mem present idKept).trans written
  obtain ⟨row, same, after, rfl, rows, nextKey⟩ := Database.updateRemotePc_eq_ok written
  obtain rfl := Option.some.inj (kept.symm.trans same)
  simp only [setStatusAndLog, RemotePcService.setRemotePcStatus, World.sendStatusUpdate_db, saved]
  split
  · exact ⟨after, world.db.accessLogs, _, rfl, rows, nextKey⟩
  · next logged =>
      obtain ⟨accessLogs, rfl⟩ := saveAccessLog_eq_ok logged
      exact ⟨after, accessLogs, _, rfl, rows, nextKey⟩

/-- An event of a PC sets the status and the assignment it leaves. -/
theorem handlePcEvent_eq (world : World) (now : Date) (remotePc : RemotePc)
    (concerned : eventMessage.evNum ∈ validNumbers) :
    ∃ status division ip, handlePcEvent world now eventMessage remotePc =
        setStatusAndLog world now remotePc status division ip ∧
      RemotePcService.applyStatus now status remotePc =
        afterEvent now eventMessage.evNum remotePc := by
  have numbers : eventMessage.evNum = 2 ∨ eventMessage.evNum = 3 ∨ eventMessage.evNum = 4 ∨
      eventMessage.evNum = 5 := by
    simpa only [validNumbers, List.mem_cons, List.not_mem_nil, or_false] using concerned
  have assigns (status : Status) (same : statusAfter eventMessage.evNum remotePc = status)
      (fresh : (remotePc.assignedAt = none ∧ status = .standby) ↔
        (remotePc.assignedAt = none ∧ eventMessage.evNum = 2)) :
      RemotePcService.applyStatus now status remotePc =
        afterEvent now eventMessage.evNum remotePc := by
    rw [RemotePcService.applyStatus_eq]
    simp only [afterEvent, same, fresh]
  unfold handlePcEvent
  rcases numbers with number | number | number | number
  · simp only [number]
    exact ⟨.standby, _, _, rfl, number ▸ assigns .standby (by rw [number]; rfl) (by simp [number])⟩
  · simp only [number]
    exact ⟨.offline, _, _, rfl, number ▸ assigns .offline (by rw [number]; rfl) (by simp [number])⟩
  · simp only [number]
    exact ⟨.active, _, _, rfl, number ▸ assigns .active (by rw [number]; rfl) (by simp [number])⟩
  · by_cases unassigned : remotePc.assignedAt = none
    · simp only [number, unassigned, ↓reduceIte]
      exact ⟨.offline, _, _, rfl, number ▸ assigns .offline
        (by simp [statusAfter, number, unassigned]) (by simp [number])⟩
    · simp only [number, unassigned, ↓reduceIte]
      exact ⟨.standby, _, _, rfl, number ▸ assigns .standby
        (by simp [statusAfter, number, unassigned]) (by simp [unassigned])⟩

/-- An event changes only PCs, log rows and what is broadcast. -/
theorem handlePcEvent_world (present : stored ∈ world.db.remotePc.rows)
    (sameId : stored.id = remotePc.id) (sameRepeaterId : stored.repeaterId = remotePc.repeaterId)
    (fits : fit remotePc = some remotePc) (concerned : eventMessage.evNum ∈ validNumbers) :
    ∃ after accessLogs broadcasts,
      (handlePcEvent world now eventMessage remotePc).2 =
        { world with
          db := { world.db with remotePc := after, accessLogs := accessLogs }
          broadcasts := broadcasts } ∧
      after.rows = Table.replace world.db.remotePc.rows
        (afterEvent now eventMessage.evNum remotePc) ∧
      after.nextKey = world.db.remotePc.nextKey := by
  obtain ⟨status, division, ip, handled, applied⟩ := handlePcEvent_eq world now remotePc concerned
  rw [handled, ← applied]
  exact setStatusAndLog_world present sameId sameRepeaterId fits

/-- The message is sent whether the row can be saved or not. -/
theorem setStatusAndLog_broadcasts (world : World) (now : Date) (remotePc : RemotePc)
    (status : Status) (division : String) (ip : Option String) :
    (setStatusAndLog world now remotePc status division ip).2.broadcasts =
      world.broadcasts ++ [(RemotePcService.applyStatus now status remotePc).statusUpdate] := by
  have same : (RemotePcService.applyStatus now status remotePc).status = status := by
    rw [RemotePcService.applyStatus_eq]
  simp only [setStatusAndLog, RemotePcService.setRemotePcStatus, RemotePc.statusUpdate, same]
  cases saved : world.db.saveRemotePc (RemotePcService.applyStatus now status remotePc) with
  | error exception => simp only [World.sendStatusUpdate, saved]
  | ok db =>
      simp only [World.sendStatusUpdate, saved]
      split <;> rfl

/-- An event of a PC sends one message. -/
theorem handlePcEvent_broadcasts (world : World) (now : Date) (remotePc : RemotePc)
    (concerned : eventMessage.evNum ∈ validNumbers) :
    (handlePcEvent world now eventMessage remotePc).2.broadcasts =
      world.broadcasts ++ [(afterEvent now eventMessage.evNum remotePc).statusUpdate] := by
  obtain ⟨status, division, ip, handled, applied⟩ := handlePcEvent_eq world now remotePc concerned
  rw [handled, setStatusAndLog_broadcasts, applied]

/-- The message names an event of the PC with the repeaterId. -/
def Signals (message : String) (evNum : Int) (repeaterId : Long) : Prop :=
  ∃ eventMessage, parseMessage message = .ok eventMessage ∧ eventMessage.evNum = evNum ∧
    eventMessage.getRepeaterId = repeaterId ∧ evNum ∈ validNumbers

/-- A message changes the row of the PC its event concerns, or nothing. -/
theorem processMessage_world (world : World) (now : Date) (message : String) :
    (processMessage world now message).2 = world ∨
      ∃ evNum remotePc after accessLogs broadcasts,
        remotePc ∈ world.db.remotePc.rows ∧ Signals message evNum remotePc.repeaterId ∧
        (processMessage world now message).2 =
          { world with
            db := { world.db with remotePc := after, accessLogs := accessLogs }
            broadcasts := broadcasts } ∧
        after.rows = Table.replace world.db.remotePc.rows (afterEvent now evNum remotePc) ∧
        after.nextKey = world.db.remotePc.nextKey := by
  unfold processMessage
  split
  · exact Or.inl rfl
  · next eventMessage parsed =>
      unfold handleEvent
      by_cases concerned : eventMessage.evNum ∈ validNumbers
      · rw [if_pos concerned]
        split
        · exact Or.inl rfl
        · next remotePc found =>
            obtain ⟨member, named⟩ := Database.findByRepeaterId_eq_some.mp found
            obtain ⟨after, accessLogs, broadcasts, changed⟩ := handlePcEvent_world member rfl rfl
              (world.db.remotePc.rows_fit remotePc member) concerned
            exact Or.inr ⟨eventMessage.evNum, remotePc, after, accessLogs, broadcasts, member,
              ⟨eventMessage, parsed, rfl, named.symm, concerned⟩, changed⟩
      · rw [if_neg concerned]
        exact Or.inl rfl

/-- A message that signals a stored PC changes its row. -/
theorem processMessage_of_signals {message : String} {evNum : Int}
    (member : remotePc ∈ world.db.remotePc.rows)
    (signals : Signals message evNum remotePc.repeaterId) :
    ∃ after accessLogs broadcasts,
      (processMessage world now message).2 =
        { world with
          db := { world.db with remotePc := after, accessLogs := accessLogs }
          broadcasts := broadcasts } ∧
      after.rows = Table.replace world.db.remotePc.rows (afterEvent now evNum remotePc) ∧
      after.nextKey = world.db.remotePc.nextKey := by
  obtain ⟨eventMessage, parsed, rfl, named, concerned⟩ := signals
  have found : world.db.findByRepeaterId eventMessage.getRepeaterId = some remotePc :=
    Database.findByRepeaterId_eq_some.mpr ⟨member, named.symm⟩
  simp only [processMessage, parsed, handleEvent, concerned, ↓reduceIte, found]
  exact handlePcEvent_world member rfl rfl (world.db.remotePc.rows_fit remotePc member)
    concerned

end MessageService

end MegaVnc
