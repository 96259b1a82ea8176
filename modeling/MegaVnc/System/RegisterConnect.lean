import MegaVnc.System.FrozenAssignment
import MegaVnc.System.RepeaterId

/-! # Registering a PC and connecting to it

A registration looks for the PC's name in the group, a call looks for it in all
groups and then for the group. The call finds the new PC because the registration has
found no other of that name in the group, and because what both send is kept as it is.
-/

namespace MegaVnc

open Relational Fallible Application
open RemotePcApiService (connected connectSettingRepeater connectTransaction_eq_ok
  connected_repeaterId exists_flush flush_eq_ok lt_nextRepeaterId mem_of_find?
  registerRemotePc registerRemotePcWith_eq_ok_iff)

/-- The call for the PC a registration has made. -/
def RegisterRemotePcDto.request (registerRemotePcDto : RegisterRemotePcDto) (reconnectId : String) :
    RequestRemotePcDto where
  groupName := registerRemotePcDto.groupName
  pcName := registerRemotePcDto.remotePcName
  accessPassword := registerRemotePcDto.accessPassword
  reconnectId := some reconnectId

/-- The columns keep the name, the password and the reconnectId as they are sent. -/
structure RegisterRemotePcDto.KeptWith (registerRemotePcDto : RegisterRemotePcDto)
    (reconnectId : String) : Prop where
  name : ∀ name ∈ registerRemotePcDto.remotePcName, varchar name = some name
  accessPassword : ∀ password ∈ registerRemotePcDto.accessPassword,
    varchar password = some password
  reconnectId : varchar reconnectId = some reconnectId

/-- A registration that succeeds adds the PC: an unassigned one above all others, with
the name and the password as their columns keep them, in the group the call names. -/
structure RegisterRemotePcDto.Adds (registerRemotePcDto : RegisterRemotePcDto)
    (db next : Database) (new : RemotePc) : Prop where
  name : ∃ sent ∈ registerRemotePcDto.remotePcName, varchar sent = some new.name ∧
    ∀ other ∈ db.remotePc.rows, ¬ (other.name = sent ∧ other.group = new.group)
  accessPassword : ∃ sent ∈ registerRemotePcDto.accessPassword,
    varchar sent = some new.accessPassword
  inGroup : ∃ group ∈ next.segment.rows, group.id = new.group ∧
    registerRemotePcDto.groupName = group.groupName
  unassigned : new.assignedAt = none
  unheld : new.reconnectId = some ""
  rows : next.remotePc.rows = db.remotePc.rows ++ [new]
  above : ∀ other ∈ db.remotePc.rows, other.repeaterId < new.repeaterId ∧ other.id ≠ new.id

/-- The registration adds a PC above all others, and the call for it is answered
with its repeaterId and gives it the reconnectId, which "default" leaves empty;
nothing else changes. -/
structure ConnectsNew (environment : Environment) (world : World)
    (registerRemotePcDto : RegisterRemotePcDto) (reconnectId : String) (new : RemotePc) :
    Prop where
  added : (step environment world (.registerRemotePcApi registerRemotePcDto)).db.remotePc.rows =
    world.db.remotePc.rows ++ [new]
  highest : ∀ other ∈ world.db.remotePc.rows, other.repeaterId < new.repeaterId
  answered : (perform environment (step environment world (.registerRemotePcApi
      registerRemotePcDto)) (.connectSettingRepeater (registerRemotePcDto.request reconnectId))).1 =
    .ok (.repeaterId new.repeaterId)
  stored : (step environment (step environment world (.registerRemotePcApi
      registerRemotePcDto)) (.connectSettingRepeater (registerRemotePcDto.request
      reconnectId))).db.remotePc.rows = world.db.remotePc.rows ++
    [{ new with reconnectId := if reconnectId = "default" then some "" else some reconnectId }]

variable {environment : Environment} {world : World} {db : Database}
  {registerRemotePcDto : RegisterRemotePcDto} {reconnectId : String} {new remotePc : RemotePc}
  {next : Database}

/-- The last row is replaced by a copy of it. -/
theorem replace_last {rows : List RemotePc} {other : RemotePc} (sameId : other.id = new.id)
    (older : ∀ row ∈ rows, row.id ≠ new.id) :
    Table.replace (rows ++ [new]) other = rows ++ [other] := by
  have kept : Table.replace rows other = rows := by
    refine (List.map_congr_left fun row member => ?_).trans (List.map_id rows)
    exact if_neg fun same => older row member (Eq.trans same sameId)
  have last : Table.replace [new] other = [other] := by
    simp only [Table.replace, List.map_singleton, key_remotePc, sameId, ↓reduceIte]
  calc
    Table.replace (rows ++ [new]) other = Table.replace rows other ++ Table.replace [new] other :=
      List.map_append
    _ = rows ++ [other] := by rw [kept, last]

/-- A call for an unassigned PC is answered with its repeaterId. -/
theorem connectSettingRepeater_of_unassigned (intact : Intact db)
    (present : remotePc ∈ db.remotePc.rows) (alone : AloneInGroup db remotePc)
    (unassigned : remotePc.assignedAt = none) {remotePcDto : RequestRemotePcDto}
    (names : remotePcDto.Names db remotePc)
    (password : remotePcDto.accessPassword = some remotePc.accessPassword)
    (given : remotePcDto.reconnectId = some reconnectId)
    (fits : varchar reconnectId = some reconnectId) :
    ∃ after : Table RemotePc, connectSettingRepeater db remotePcDto =
        .ok (remotePc.repeaterId, { db with remotePc := after }) ∧
      after.rows = Table.replace db.remotePc.rows (connected reconnectId remotePc) := by
  obtain ⟨group, inGroup, found⟩ := names.found intact present alone
  have granted := connectTransaction_eq_ok.mpr
    ⟨group, remotePc, reconnectId, inGroup, found, Or.inl unassigned, password, given, rfl⟩
  have stored : fit (connected reconnectId remotePc) =
      some (connected reconnectId remotePc) := by
    have kept := db.remotePc.rows_fit remotePc present
    obtain ⟨nameFits, passwordFits, -⟩ := fit_remotePc_eq_self.mp kept
    unfold connected
    split
    · exact fit_remotePc_eq_self.mpr ⟨nameFits, passwordFits, congrArg (Option.map some) fits⟩
    · exact kept
  obtain ⟨next, flushed⟩ := @exists_flush db
    { loaded := remotePc, current := connected reconnectId remotePc } _ present
    (RemotePcApiService.connected_id remotePc) (connected_repeaterId remotePc) stored
  obtain ⟨kept, keeps, after, rfl, rows, -⟩ := flush_eq_ok present flushed
  cases stored.symm.trans keeps
  refine ⟨after, ?_, rows⟩
  refine bind_eq_ok.mpr ⟨_, granted, bind_eq_ok.mpr ⟨_, flushed, ?_⟩⟩
  exact congrArg (fun id => Except.ok (id, _)) (connected_repeaterId remotePc)

/-- A call that is answered has sent the name and the password of a PC. -/
theorem sent_of_answered {remotePcDto : RequestRemotePcDto} {repeaterId : Long}
    (answered : (perform environment world (.connectSettingRepeater remotePcDto)).1 =
      .ok (.repeaterId repeaterId)) :
    ∃ remotePc ∈ world.db.remotePc.rows, remotePc.repeaterId = repeaterId ∧
      remotePcDto.pcName = some remotePc.name ∧
      remotePcDto.accessPassword = some remotePc.accessPassword := by
  have completed : perform environment world (.connectSettingRepeater remotePcDto) =
      (.ok (.repeaterId repeaterId),
        step environment world (.connectSettingRepeater remotePcDto)) := Prod.ext answered rfl
  obtain ⟨db, ok, -⟩ := transact_eq_ok.mp completed
  simp only [connectSettingRepeater, bind_eq_ok, pure_eq_ok] at ok
  obtain ⟨_, ⟨entity, granted, next, -, rfl⟩, same⟩ := ok
  obtain ⟨group, remotePc, reconnectId, -, found, -, password, -, rfl⟩ :=
    connectTransaction_eq_ok.mp granted
  obtain ⟨present, named, -⟩ := mem_of_find? found
  cases same
  exact ⟨remotePc, present, (connected_repeaterId remotePc).symm, named.symm, password⟩

/-- A registration that succeeds adds one row. -/
theorem registerRemotePc_adds (registered : registerRemotePc db registerRemotePcDto = .ok next) :
    ∃ new, registerRemotePcDto.Adds db next new := by
  obtain ⟨sentName, sentPassword, group, accepted, inserted⟩ :=
    registerRemotePcWith_eq_ok_iff.mp registered
  obtain ⟨keptName, keptPassword, nameFits, passwordFits, -, after, rfl, rows, -⟩ :=
    Database.insertRemotePc_eq_ok inserted
  refine ⟨_, ⟨⟨sentName, accepted.named, nameFits, accepted.unnamed⟩,
    ⟨sentPassword, accepted.secured, passwordFits⟩, ⟨group, accepted.group_mem, rfl, ?_⟩, rfl, rfl,
    rows, fun other present => ?_⟩⟩
  · have inGroup := accepted.inGroup
    unfold Database.findByGroupName at inGroup
    have named := List.find?_some inGroup
    exact (of_decide_eq_true named).symm
  · exact ⟨lt_nextRepeaterId present, Int.ne_of_lt (db.remotePc.keys_below other present)⟩

namespace RegisterRemotePcDto.Adds

variable (adds : registerRemotePcDto.Adds db next new)

include adds

theorem mem : new ∈ next.remotePc.rows :=
  adds.rows ▸ List.mem_append_right _ (List.mem_singleton_self _)

/-- No other PC of the group has a name that was kept as it was sent. -/
theorem aloneInGroup (kept : registerRemotePcDto.KeptWith reconnectId) :
    AloneInGroup next new := by
  obtain ⟨sent, named, fits, free⟩ := adds.name
  have sameName : sent = new.name := Option.some.inj ((kept.name sent named).symm.trans fits)
  intro other present otherName otherGroup
  rcases List.mem_append.mp (adds.rows ▸ present) with old | added
  · exact (free other old ⟨otherName.trans sameName.symm, otherGroup⟩).elim
  · rw [List.mem_singleton.mp added]

/-- When the columns keep the texts of the registration, the request made from it names the
new row. -/
theorem names (kept : registerRemotePcDto.KeptWith reconnectId) :
    (registerRemotePcDto.request reconnectId).Names next new := by
  obtain ⟨sent, named, fits, -⟩ := adds.name
  have sameName : sent = new.name := Option.some.inj ((kept.name sent named).symm.trans fits)
  exact ⟨sameName ▸ named, adds.inGroup⟩

/-- The new row carries the password of the registration. -/
theorem password (kept : registerRemotePcDto.KeptWith reconnectId) :
    registerRemotePcDto.accessPassword = some new.accessPassword := by
  obtain ⟨sent, given, fits⟩ := adds.accessPassword
  have same : sent = new.accessPassword :=
    Option.some.inj ((kept.accessPassword sent given).symm.trans fits)
  exact same ▸ given

/-- The columns have kept what the call for the PC sends again. -/
theorem keptWith (sentName : registerRemotePcDto.remotePcName = some new.name)
    (sentPassword : registerRemotePcDto.accessPassword = some new.accessPassword)
    (fits : varchar reconnectId = some reconnectId) :
    registerRemotePcDto.KeptWith reconnectId := by
  obtain ⟨_, -, nameFits, -⟩ := adds.name
  obtain ⟨_, -, passwordFits⟩ := adds.accessPassword
  refine ⟨fun name named => ?_, fun password given => ?_, fits⟩
  · obtain rfl := Option.some.inj (sentName.symm.trans named)
    exact varchar_varchar nameFits
  · obtain rfl := Option.some.inj (sentPassword.symm.trans given)
    exact varchar_varchar passwordFits

end RegisterRemotePcDto.Adds

/-- A PC holds a reconnectId as its column keeps it. -/
theorem ConnectsNew.fits (connects : ConnectsNew environment world registerRemotePcDto reconnectId
    new) : varchar reconnectId = some reconnectId := by
  by_cases sentinel : reconnectId = "default"
  · subst sentinel
    decide
  · have stored := connects.stored
    simp only [sentinel, ↓reduceIte] at stored
    have present := stored ▸ List.mem_append_right world.db.remotePc.rows
      (List.mem_singleton_self { new with reconnectId := some reconnectId })
    exact Database.varchar_of_holds present rfl

/-- After a registration that succeeds, the call for the new PC with the reconnectId is
answered with the PC's repeaterId, which is above all others, and gives the PC the
reconnectId and changes no other, exactly when the columns keep the name, the password and
the reconnectId as they are sent. -/
theorem register_then_connect (reached : Application.Reachable environment world)
    (succeeded : (perform environment world (.registerRemotePcApi registerRemotePcDto)).1 =
      .ok .done) (reconnectId : String) :
    (∃ new, ConnectsNew environment world registerRemotePcDto reconnectId new) ↔
      registerRemotePcDto.KeptWith reconnectId := by
  have performed : perform environment world (.registerRemotePcApi registerRemotePcDto) =
      (.ok .done, step environment world (.registerRemotePcApi registerRemotePcDto)) :=
    Prod.ext succeeded rfl
  obtain ⟨db, committed, made⟩ := transact_eq_ok.mp performed
  obtain ⟨new, adds⟩ := registerRemotePc_adds (done_eq_ok.mp committed).1
  constructor
  · rintro ⟨added, connects⟩
    have rows := connects.added
    rw [← made] at rows
    obtain rfl : new = added :=
      (List.cons.inj (List.append_cancel_left (adds.rows.symm.trans rows))).1
    obtain ⟨remotePc, present, sameId, sentName, sentPassword⟩ := sent_of_answered connects.answered
    rw [← made] at present
    obtain rfl : remotePc = new := Table.eq_of_clash present adds.mem (clash_remotePc.mpr sameId)
    exact adds.keptWith sentName sentPassword connects.fits
  · intro kept
    have intact : Intact db := by
      have after : Application.Reachable environment (step environment world
          (.registerRemotePcApi registerRemotePcDto)) := reached.run [_]
      rw [← made] at after
      exact after.intact
    obtain ⟨after, answered, replaced⟩ := connectSettingRepeater_of_unassigned intact adds.mem
      (adds.aloneInGroup kept) adds.unassigned (adds.names kept) (adds.password kept) rfl
      kept.reconnectId
    have connects := @perform_connect environment (world.withDb db) _ _ _ answered
    have renamed : connected reconnectId new =
        { new with
          reconnectId := if reconnectId = "default" then some "" else some reconnectId } := by
      unfold connected RemotePc.updateReconnectId
      by_cases sentinel : reconnectId = "default"
      · simp only [sentinel, ne_eq, not_true_eq_false, ↓reduceIte, ← adds.unheld]
      · simp only [sentinel, ne_eq, not_false_eq_true, ↓reduceIte]
    refine ⟨new, ?_, fun other stored => (adds.above other stored).1, ?_, ?_⟩
    · rw [← made]
      exact adds.rows
    · rw [← made, connects]
    · rw [← made, step, connects]
      rw [← renamed]
      change after.rows = _
      rw [replaced, adds.rows]
      exact replace_last (RemotePcApiService.connected_id new) fun other stored =>
        (adds.above other stored).2

/-- The PC of the laboratory is registered, and its client connects. -/
theorem labPc_connects :
    ∃ new, ConnectsNew .dev (step .dev (initial .dev) createLab)
      { accessPassword := some "1111", remotePcName := some "PC-1", groupName := some "Lab" }
      "app-1" new :=
  (register_then_connect ⟨[createLab], rfl⟩ (by decide +kernel) "app-1").mpr
    ⟨by decide, by decide, by decide⟩

/-- The client asks for a reconnectId of 256 characters. -/
theorem longId_refused :
    ¬ ∀ (environment : Environment) (world : World), Application.Reachable environment world →
      ∀ registerRemotePcDto,
        (perform environment world (.registerRemotePcApi registerRemotePcDto)).1 = .ok .done →
          ∀ reconnectId, ∃ new,
            ConnectsNew environment world registerRemotePcDto reconnectId new := by
  intro connects
  obtain ⟨new, connected⟩ := connects .dev (step .dev (initial .dev) createLab)
    ⟨[createLab], rfl⟩
    { accessPassword := some "1111", remotePcName := some "PC-1", groupName := some "Lab" }
    (by decide +kernel) (.ofList (List.replicate 256 'a'))
  have refused : varchar (.ofList (List.replicate 256 'a')) = none := by decide +kernel
  cases refused.symm.trans connected.fits

end MegaVnc
