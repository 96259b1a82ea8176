import MegaVnc.System.Frame

/-! # What an operation does to the PCs

Every operation leaves `remote_pc` as it is, changes one row of it, adds a row,
or deletes rows. A changed row was connected by a client, released, or signalled
by the repeater; nothing else touches a stored PC. All invariants of the PCs are
derived from this.
-/

namespace MegaVnc

open Relational Fallible Application
open RemotePcApiService (connected nextRepeaterId)
open MessageService (Signals afterEvent)

/-- How an operation changes the row of a PC. -/
inductive RemotePc.Change (db : Database) (remotePc : RemotePc) :
    Operation → RemotePc → Prop where
  | connected {remotePcDto : RequestRemotePcDto} {group : Group} {reconnectId kept : String}
      (inGroup : db.findByGroupName remotePcDto.groupName = some group)
      (found : (db.findByName remotePcDto.pcName).find? (fun row => row.group = group.id) =
        some remotePc)
      (free : remotePc.assignedAt = none ∨ remotePc.reconnectId = some reconnectId)
      (given : remotePcDto.reconnectId = some reconnectId)
      (keeps : varchar reconnectId = some kept)
      (answered : ∃ next, RemotePcApiService.connectSettingRepeater db remotePcDto =
        .ok (remotePc.repeaterId, next)) :
      Change db remotePc (.connectSettingRepeater remotePcDto) (connected kept remotePc)
  | released {reconnectId : String}
      (found : db.findByReconnectId reconnectId = .ok (some remotePc)) :
      Change db remotePc (.disAssignRemotePc reconnectId) remotePc.disAssign
  | signalled {now : Date} {message : String} {evNum : Int}
      (signals : Signals message evNum remotePc.repeaterId) :
      Change db remotePc (.processMessage now message) (afterEvent now evNum remotePc)

/-- The operation registers a PC under a new id. -/
def Operation.Registers : Operation → Prop
  | .registerRemotePcApi _ | .registerRemotePcWeb _ => True
  | _ => False

/-- What the operation sends to register a PC, with the group name that its service
takes for no selection. -/
def Operation.registration : Operation → Option (RegisterRemotePcDto × String)
  | .registerRemotePcApi registerRemotePcDto => some (registerRemotePcDto, "")
  | .registerRemotePcWeb registerRemotePcDto =>
      some (registerRemotePcDto, RemotePcService.allGroup)
  | _ => none

/-- An operation with a registration registers. -/
theorem Operation.registers_of_registration {operation : Operation}
    {sent : RegisterRemotePcDto × String} (registers : operation.registration = some sent) :
    operation.Registers := by
  unfold Operation.registration at registers
  split at registers
  · trivial
  · trivial
  · cases registers

/-- The operation would delete the PC. -/
def Operation.Deletes (operation : Operation) (remotePc : RemotePc) : Prop :=
  match operation with
  | .deleteRemotePc _ id => id ≠ 1 ∧ remotePc.id = id
  | .deleteGroup groupId => groupId ≠ 1 ∧ remotePc.group = groupId
  | _ => False

/-- The PC is gone after the operation. -/
def Operation.Removes (environment : Environment) (world : World) (operation : Operation)
    (remotePc : RemotePc) : Prop :=
  ∀ row ∈ (step environment world operation).db.remotePc.rows, row.id ≠ remotePc.id

/-- All that an operation can do to the table of PCs: nothing, a change of one row, a new
row, or the removal of rows. -/
inductive RemotePcEffect (db : Database) (operation : Operation) (after : Table RemotePc) :
    Prop where
  | kept (rows : after.rows = db.remotePc.rows) (nextKey : db.remotePc.nextKey ≤ after.nextKey)
  | changed {old new : RemotePc} (present : old ∈ db.remotePc.rows)
      (change : old.Change db operation new)
      (rows : after.rows = Table.replace db.remotePc.rows new)
      (nextKey : after.nextKey = db.remotePc.nextKey)
  | registered {registerRemotePcDto : RegisterRemotePcDto} {notSelected : String}
      {sentName sentPassword name accessPassword : String} {group : Group}
      (registers : operation.registration = some (registerRemotePcDto, notSelected))
      (accepted : registerRemotePcDto.Accepted notSelected db sentName sentPassword group)
      (named : varchar sentName = some name) (secured : varchar sentPassword = some accessPassword)
      (rows : after.rows = db.remotePc.rows ++ [RemotePc.createRemotePc
        (nextRepeaterId db.findTopByOrderByRepeaterIdDesc) name accessPassword group.id
        db.remotePc.nextKey])
      (nextKey : after.nextKey = db.remotePc.nextKey + 1)
  | loaded {lostKeys : Nat} (starts : operation = .dataLoader lostKeys)
      (missing : ∀ remotePc ∈ db.remotePc.rows, remotePc.repeaterId ≠ 100)
      (rows : after.rows = db.remotePc.rows ++
        [RemotePc.createRemotePc 100 "BASE" "1234" 1 (db.remotePc.nextKey + lostKeys)])
      (nextKey : after.nextKey = db.remotePc.nextKey + lostKeys + 1)
  | deleted (doomed : RemotePc → Prop) (decided : DecidablePred doomed)
      (deletes : ∀ remotePc, doomed remotePc ↔ operation.Deletes remotePc)
      (rows : after.rows = (db.remotePc.deleteWhere doomed).rows)
      (nextKey : after.nextKey = db.remotePc.nextKey)

variable {environment : Environment} {world : World} {operation : Operation}

/-- An operation that does not write PCs keeps them. -/
theorem kept_effect (untouched : TableName.remotePc ∉ operation.writes) :
    RemotePcEffect world.db operation (step environment world operation).db.remotePc := by
  have same : (step environment world operation).db.remotePc = world.db.remotePc :=
    step_same untouched
  rw [same]
  exact .kept rfl (Int.le_refl _)

/-- A transaction that fails keeps the PCs. -/
theorem transact_effect {transaction : Except Exception (Reply × Database)}
    (effect : ∀ reply db, transaction = .ok (reply, db) →
      RemotePcEffect world.db operation db.remotePc) :
    RemotePcEffect world.db operation (transact world transaction).2.db.remotePc :=
  transact_holds (fun db => RemotePcEffect world.db operation db.remotePc)
    (.kept rfl (Int.le_refl _)) effect

/-- A call of an app changes the PC that it is granted, or nothing. -/
theorem connect_effect {remotePcDto : RequestRemotePcDto} :
    RemotePcEffect world.db (.connectSettingRepeater remotePcDto)
      (step environment world (.connectSettingRepeater remotePcDto)).db.remotePc := by
  apply transact_effect
  intro reply db ok
  obtain ⟨repeaterId, connected, rfl⟩ := (answered_eq_ok .repeaterId).mp ok
  obtain ⟨remotePc, group, reconnectId, kept, after, inGroup, found, free, given, keeps, rfl, rfl,
    rows, nextKey⟩ := RemotePcApiService.connectSettingRepeater_eq_ok connected
  have present := (RemotePcApiService.mem_of_find? found).1
  exact .changed present (.connected inGroup found free given keeps ⟨_, connected⟩) rows nextKey

/-- A release changes the PC that holds the reconnectId, or nothing. -/
theorem disAssign_effect {reconnectId : String} :
    RemotePcEffect world.db (.disAssignRemotePc reconnectId)
      (step environment world (.disAssignRemotePc reconnectId)).db.remotePc := by
  apply transact_effect
  intro reply db ok
  simp only [RemotePcApiService.disAssignRemotePcByRepeaterId, bind_eq_ok, pure_eq_ok] at ok
  obtain ⟨_, ⟨entity, released, flushed⟩, same⟩ := ok
  cases same
  obtain ⟨remotePc, found, rfl⟩ := RemotePcApiService.disAssignTransaction_eq_ok.mp released
  have present := (Database.findByReconnectId_eq_ok_some found).1
  obtain ⟨_, fits, after, rfl, rows, nextKey⟩ := RemotePcApiService.flush_eq_ok present flushed
  have released := RemotePcApiService.fit_disAssign (world.db.remotePc.rows_fit _ present)
  cases released.symm.trans fits
  exact .changed present (.released found) rows nextKey

/-- A line of the repeater changes the PC that it is about, or nothing. -/
theorem message_effect {now : Date} {message : String} :
    RemotePcEffect world.db (.processMessage now message)
      (step environment world (.processMessage now message)).db.remotePc := by
  change RemotePcEffect _ _ (MessageService.processMessage world now message).2.db.remotePc
  rcases MessageService.processMessage_world world now message with
    same | ⟨evNum, remotePc, after, _, _, present, signals, moved, rows, nextKey⟩
  · rw [same]
    exact .kept rfl (Int.le_refl _)
  · rw [moved]
    exact .changed present (.signalled signals) rows nextKey

/-- Both services register under the id above the highest one. -/
theorem register_effect {exception : ErrorCode → String → Exception} {notSelected : String}
    {registerRemotePcDto : RegisterRemotePcDto}
    (registers : operation.registration = some (registerRemotePcDto, notSelected)) :
    RemotePcEffect world.db operation (transact world do
      let db ← RemotePcApiService.registerRemotePcWith exception notSelected world.db
        registerRemotePcDto
      pure (.done, db)).2.db.remotePc := by
  apply transact_effect
  intro reply db ok
  obtain ⟨registered, rfl⟩ := done_eq_ok.mp ok
  obtain ⟨sentName, sentPassword, group, accepted, inserted⟩ :=
    RemotePcApiService.registerRemotePcWith_eq_ok_iff.mp registered
  obtain ⟨name, accessPassword, named, secured, -, after, rfl, rows, nextKey⟩ :=
    Database.insertRemotePc_eq_ok inserted
  exact .registered registers accepted named secured rows nextKey

/-- A start adds the base PC, or nothing. -/
theorem dataLoader_effect {lostKeys : Nat} :
    RemotePcEffect world.db (.dataLoader lostKeys)
      (step environment world (.dataLoader lostKeys)).db.remotePc := by
  rcases MegaVncApplication.dataLoader_remotePc environment.encodePassword_fits
    (world.db.skipKeys lostKeys) with same | ⟨missing, rows, nextKey⟩
  · have rows := congrArg Table.rows same
    have nextKey := congrArg Table.nextKey same
    change (step environment world (.dataLoader lostKeys)).db.remotePc.nextKey =
      world.db.remotePc.nextKey + lostKeys at nextKey
    exact .kept rows (by omega)
  · exact .loaded rfl missing rows nextKey

/-- A deletion removes one PC, or nothing. -/
theorem deletePc_effect {user : User} {id : Long} :
    RemotePcEffect world.db (.deleteRemotePc user id)
      (step environment world (.deleteRemotePc user id)).db.remotePc := by
  apply transact_effect
  intro reply db ok
  obtain ⟨groupName, deleted, rfl⟩ := (answered_eq_ok .deleted).mp ok
  obtain ⟨⟨_, _, -, -, notDefault, -⟩, rfl⟩ := RemotePcService.deletePc_eq_ok deleted
  refine .deleted (fun remotePc => remotePc.id = id) _ (fun remotePc => ?_) rfl rfl
  exact ⟨fun same => ⟨notDefault, same⟩, And.right⟩

/-- The deletion of a group removes its PCs, or nothing. -/
theorem deleteGroup_effect {groupId : Long} :
    RemotePcEffect world.db (.deleteGroup groupId)
      (step environment world (.deleteGroup groupId)).db.remotePc := by
  apply transact_effect
  intro reply db ok
  obtain ⟨deleted, rfl⟩ := done_eq_ok.mp ok
  obtain ⟨other, rfl⟩ := AdminGroupService.deleteGroup_eq_ok deleted
  refine .deleted (fun remotePc => remotePc.group = groupId) _ (fun remotePc => ?_) rfl rfl
  exact ⟨fun same => ⟨other, same⟩, And.right⟩

/-- What any operation does to the PCs. -/
theorem step_effect (environment : Environment) (world : World) (operation : Operation) :
    RemotePcEffect world.db operation (step environment world operation).db.remotePc := by
  cases operation with
  | dataLoader lostKeys => exact dataLoader_effect
  | connectSettingRepeater remotePcDto => exact connect_effect
  | disAssignRemotePc reconnectId => exact disAssign_effect
  | processMessage now message => exact message_effect
  | registerRemotePcApi registerRemotePcDto => exact register_effect rfl
  | registerRemotePcWeb registerRemotePcDto => exact register_effect rfl
  | deleteRemotePc user id => exact deletePc_effect
  | deleteGroup groupId => exact deleteGroup_effect
  | _ => exact kept_effect (by simp only [Operation.writes, List.mem_cons, List.not_mem_nil,
      reduceCtorEq, or_self, not_false_eq_true])

/-! ### The replies to the clients -/

/-- A granted call answers the repeaterId. -/
theorem perform_connect {remotePcDto : RequestRemotePcDto} {repeaterId : Long} {next : Database}
    (connected : RemotePcApiService.connectSettingRepeater world.db remotePcDto =
      .ok (repeaterId, next)) :
    perform environment world (.connectSettingRepeater remotePcDto) =
      (.ok (.repeaterId repeaterId), world.withDb next) :=
  transact_eq_ok.mpr ⟨next, bind_eq_ok.mpr ⟨_, connected, rfl⟩, rfl⟩

/-- A call that is answered with an id found its PC unassigned, or holding the
reconnectId of the call, and has stored that reconnectId as the column keeps it. -/
theorem connect_reply {remotePcDto : RequestRemotePcDto} {repeaterId : Long}
    (granted : (perform environment world (.connectSettingRepeater remotePcDto)).1 =
      .ok (.repeaterId repeaterId)) :
    ∃ remotePc ∈ world.db.remotePc.rows, ∃ reconnectId kept, remotePc.repeaterId = repeaterId ∧
      remotePcDto.reconnectId = some reconnectId ∧ varchar reconnectId = some kept ∧
      (remotePc.assignedAt = none ∨ remotePc.reconnectId = some reconnectId) ∧
      (step environment world (.connectSettingRepeater remotePcDto)).db.remotePc.rows =
        Table.replace world.db.remotePc.rows (connected kept remotePc) := by
  change (transact world _).1 = _ at granted
  rcases transact_cases world _ with ⟨exception, -, failed⟩ | ⟨reply, db, ok, committed⟩
  · rw [failed] at granted
    cases granted
  · rw [committed] at granted
    cases granted
    obtain ⟨_, connected, same⟩ := (answered_eq_ok .repeaterId).mp ok
    cases same
    obtain ⟨remotePc, group, reconnectId, kept, after, inGroup, found, free, given, keeps, rfl, rfl,
      rows, -⟩ := RemotePcApiService.connectSettingRepeater_eq_ok connected
    refine ⟨remotePc, (RemotePcApiService.mem_of_find? found).1, reconnectId, kept, rfl, given,
      keeps, free, ?_⟩
    rw [step, perform_connect connected]
    exact rows

/-- A release by a reconnectId that one PC holds alone succeeds and changes only
that PC. -/
theorem perform_disAssign {reconnectId : String} {remotePc : RemotePc}
    (found : world.db.findByReconnectId reconnectId = .ok (some remotePc)) :
    ∃ after : Table RemotePc,
      perform environment world (.disAssignRemotePc reconnectId) =
        (.ok .done, world.withDb { world.db with remotePc := after }) ∧
      after.rows = Table.replace world.db.remotePc.rows remotePc.disAssign := by
  have present := (Database.findByReconnectId_eq_ok_some found).1
  have fits := RemotePcApiService.fit_disAssign (world.db.remotePc.rows_fit remotePc present)
  have released : RemotePcApiService.disAssignTransaction world.db reconnectId =
      .ok { loaded := remotePc, current := remotePc.disAssign } :=
    RemotePcApiService.disAssignTransaction_eq_ok.mpr ⟨remotePc, found, rfl⟩
  obtain ⟨next, flushed⟩ := RemotePcApiService.exists_flush
    (show ({ loaded := remotePc, current := remotePc.disAssign } : Managed).loaded ∈ _ from present)
    rfl rfl fits
  obtain ⟨_, stored, after, rfl, rows, -⟩ := RemotePcApiService.flush_eq_ok present flushed
  cases fits.symm.trans stored
  refine ⟨after, ?_, rows⟩
  apply transact_eq_ok.mpr
  refine ⟨{ world.db with remotePc := after }, ?_, rfl⟩
  apply bind_eq_ok.mpr
  exact ⟨_, bind_eq_ok.mpr ⟨_, released, flushed⟩, rfl⟩

/-! ### One PC before and after an operation -/

section OneRow

variable {db : Database} {old new : RemotePc}

/-- A change leaves the columns that identify the PC. -/
theorem RemotePc.Change.sameIdentity (change : old.Change db operation new) :
    old.SameIdentity new := by
  cases change with
  | connected inGroup found free given keeps answered =>
      unfold RemotePcApiService.connected
      split <;> exact ⟨rfl, rfl, rfl, rfl, rfl⟩
  | released found => exact ⟨rfl, rfl, rfl, rfl, rfl⟩
  | signalled signals => exact ⟨rfl, rfl, rfl, rfl, rfl⟩

/-- A PC there afterwards was there before, or is fresh from its creation. -/
theorem mem_of_mem_step (member : new ∈ (step environment world operation).db.remotePc.rows) :
    (∃ old ∈ world.db.remotePc.rows, old.id = new.id ∧
        (new = old ∨ old.Change world.db operation new)) ∨
      ∃ repeaterId name accessPassword group id, world.db.remotePc.nextKey ≤ id ∧
        new = RemotePc.createRemotePc repeaterId name accessPassword group id := by
  cases step_effect environment world operation with
  | kept rows nextKey =>
      rw [rows] at member
      exact Or.inl ⟨new, member, rfl, Or.inl rfl⟩
  | @changed old changed present change rows nextKey =>
      rw [rows] at member
      rcases Table.mem_replace.mp member with ⟨kept, -⟩ | ⟨rfl, -⟩
      · exact Or.inl ⟨new, kept, rfl, Or.inl rfl⟩
      · exact Or.inl ⟨old, present, change.sameIdentity.1, Or.inr change⟩
  | registered registers accepted named secured rows nextKey =>
      rw [rows] at member
      rcases List.mem_append.mp member with kept | added
      · exact Or.inl ⟨new, kept, rfl, Or.inl rfl⟩
      · exact Or.inr ⟨_, _, _, _, _, Int.le_refl _, List.mem_singleton.mp added⟩
  | loaded starts missing rows nextKey =>
      rw [rows] at member
      rcases List.mem_append.mp member with kept | added
      · exact Or.inl ⟨new, kept, rfl, Or.inl rfl⟩
      · exact Or.inr ⟨_, _, _, _, _, by omega, List.mem_singleton.mp added⟩
  | deleted doomed decided deletes rows nextKey =>
      rw [rows] at member
      exact Or.inl ⟨new, (Table.mem_deleteWhere.mp member).1, rfl, Or.inl rfl⟩

/-- A PC there before is there afterwards, unless the operation deletes it. -/
theorem mem_step_of_mem (environment : Environment) (operation : Operation)
    (member : old ∈ world.db.remotePc.rows) :
    (∃ new ∈ (step environment world operation).db.remotePc.rows, old.id = new.id ∧
        (new = old ∨ old.Change world.db operation new)) ∨
      operation.Deletes old ∧
        ∀ new ∈ (step environment world operation).db.remotePc.rows, new.id ≠ old.id := by
  cases step_effect environment world operation with
  | kept rows nextKey =>
      rw [rows]
      exact Or.inl ⟨old, member, rfl, Or.inl rfl⟩
  | @changed changed new present change rows nextKey =>
      rw [rows]
      have sameId := change.sameIdentity.1
      by_cases hit : old.id = new.id
      · have same : old = changed := Table.eq_of_key_eq member present (hit.trans sameId.symm)
        subst same
        exact Or.inl ⟨new, Table.mem_replace.mpr (Or.inr ⟨rfl, old, present, hit⟩), hit,
          Or.inr change⟩
      · exact Or.inl ⟨old, Table.mem_replace.mpr (Or.inl ⟨member, hit⟩), rfl, Or.inl rfl⟩
  | registered registers accepted named secured rows nextKey =>
      rw [rows]
      exact Or.inl ⟨old, List.mem_append_left _ member, rfl, Or.inl rfl⟩
  | loaded starts missing rows nextKey =>
      rw [rows]
      exact Or.inl ⟨old, List.mem_append_left _ member, rfl, Or.inl rfl⟩
  | deleted doomed decided deletes rows nextKey =>
      rw [rows]
      by_cases gone : doomed old
      · refine Or.inr ⟨(deletes old).mp gone, fun new kept sameId => ?_⟩
        obtain ⟨present, spared⟩ := Table.mem_deleteWhere.mp kept
        have same : new = old := Table.eq_of_key_eq present member sameId
        rw [same] at spared
        exact spared gone
      · exact Or.inl ⟨old, Table.mem_deleteWhere.mpr ⟨member, gone⟩, rfl, Or.inl rfl⟩

/-- No operation gives an id of PCs out again. -/
theorem nextKey_le_step :
    world.db.remotePc.nextKey ≤ (step environment world operation).db.remotePc.nextKey := by
  cases step_effect environment world operation with
  | kept rows nextKey => exact nextKey
  | changed present change rows nextKey => exact Int.le_of_eq nextKey.symm
  | registered registers accepted named secured rows nextKey => omega
  | loaded starts missing rows nextKey => omega
  | deleted doomed decided deletes rows nextKey => exact Int.le_of_eq nextKey.symm

end OneRow

/-! ### One PC before and after a run -/

section Runs

variable {operations : List Operation} {old new : RemotePc}

/-- A PC there after a run was there before it, or has a later id. -/
theorem origin_of_mem_run
    (member : new ∈ (Transition.run (step environment) world operations).db.remotePc.rows) :
    (∃ old ∈ world.db.remotePc.rows, old.SameIdentity new) ∨
      world.db.remotePc.nextKey ≤ new.id := by
  induction operations generalizing world with
  | nil => exact Or.inl ⟨new, member, rfl, rfl, rfl, rfl, rfl⟩
  | cons operation rest ih =>
      rcases ih member with ⟨middle, present, same⟩ | later
      · rcases mem_of_mem_step present with
          ⟨old, stored, -, rfl | change⟩ |
            ⟨repeaterId, name, accessPassword, group, id, fresh, made⟩
        · exact Or.inl ⟨middle, stored, same⟩
        · exact Or.inl ⟨old, stored, change.sameIdentity.trans same⟩
        · have sameId : new.id = id := by rw [← same.1, made]; rfl
          exact Or.inr (sameId ▸ fresh)
      · exact Or.inr (Int.le_trans nextKey_le_step later)

/-- A PC keeps the columns that identify it as long as it is stored. -/
theorem sameIdentity_of_run (stored : old ∈ world.db.remotePc.rows)
    (member : new ∈ (Transition.run (step environment) world operations).db.remotePc.rows)
    (sameId : old.id = new.id) : old.SameIdentity new := by
  rcases origin_of_mem_run member with ⟨first, present, same⟩ | later
  · have unique : old = first := Table.eq_of_key_eq stored present (sameId.trans same.1.symm)
    exact unique ▸ same
  · have earlier := world.db.remotePc.keys_below old stored
    rw [key_remotePc, sameId] at earlier
    exact (Int.not_le_of_gt earlier later).elim

end Runs

/-! ### Invariants of the reachable states -/

/-- An invariant of every PC's row: it holds of a created PC and every change
keeps it. -/
theorem Application.Reachable.forall_remotePc (invariant : RemotePc → Prop)
    (reached : Application.Reachable environment world)
    (created : ∀ repeaterId name accessPassword group id,
      invariant (.createRemotePc repeaterId name accessPassword group id))
    (kept : ∀ db operation old new, RemotePc.Change db old operation new → invariant old →
      invariant new) :
    ∀ remotePc ∈ world.db.remotePc.rows, invariant remotePc := by
  have preserved (world : World) (operation : Operation)
      (before : ∀ remotePc ∈ world.db.remotePc.rows, invariant remotePc) :
      ∀ remotePc ∈ (step environment world operation).db.remotePc.rows, invariant remotePc := by
    intro new member
    rcases mem_of_mem_step member with
      ⟨old, present, -, rfl | change⟩ | ⟨repeaterId, name, accessPassword, group, id, -, rfl⟩
    · exact before new present
    · exact kept world.db operation old new change (before old present)
    · exact created repeaterId name accessPassword group id
  apply Transition.Reachable.invariant _ reached preserved
  apply preserved
  intro remotePc member
  cases member

/-- The reconnectId of a stored PC is never null. -/
theorem Application.Reachable.reconnectId_ne_none {remotePc : RemotePc}
    (reached : Application.Reachable environment world)
    (member : remotePc ∈ world.db.remotePc.rows) : remotePc.reconnectId ≠ none := by
  refine reached.forall_remotePc (fun remotePc => remotePc.reconnectId ≠ none) ?_ ?_ remotePc
    member
  · intro repeaterId name accessPassword group id
    exact Option.some_ne_none ""
  · intro db operation old new change known
    cases change with
    | connected inGroup found free given keeps answered =>
        rw [RemotePcApiService.connected_reconnectId]
        split
        · exact known
        · exact Option.some_ne_none _
    | released found => exact Option.some_ne_none ""
    | signalled signals => exact known

/-- The base PC. -/
def IsBasePc (remotePc : RemotePc) : Prop :=
  remotePc.id = 1 ∧ remotePc.repeaterId = 100 ∧ remotePc.group = 1

/-- In an empty database the administrator is added. -/
theorem loadAdmin_of_empty {encode : String → String} {db : Database}
    (noMember : db.member = Table.empty)
    (fits : ∀ password, varchar (encode password) = some (encode password)) :
    ∃ after, MegaVncApplication.loadAdmin encode db = .ok { db with member := after } ∧
      after.rows = [Member.createMember encode (some "admin") "!mb220719" .roleAdmin 1] := by
  have unknown : db.findByUsername (some "admin") = none := by
    rw [Database.findByUsername, noMember]
    rfl
  have stored (id : Long) :
      fit (Member.createMember encode (some "admin") "!mb220719" .roleAdmin id) =
        some (Member.createMember encode (some "admin") "!mb220719" .roleAdmin id) :=
    fit_member_eq_some.mpr ⟨_, some "admin", fits _, rfl, rfl⟩
  have free : ∀ row ∈ db.member.rows, ¬ Clash row
      (Member.createMember encode (some "admin") "!mb220719" .roleAdmin db.member.nextKey) := by
    intro row present
    rw [noMember] at present
    cases present
  have keyed (id : Long) :
      key (Member.createMember encode (some "admin") "!mb220719" .roleAdmin id) = id := rfl
  obtain ⟨after, added⟩ : ∃ after, db.member.insert _ keyed = some after :=
    Table.insert_isSome (stored _) free
  obtain ⟨new, same, -, rows, -⟩ := Table.insert_eq_some added
  cases (stored _).symm.trans same
  refine ⟨after, ?_, ?_⟩
  · rw [MegaVncApplication.loadAdmin, unknown]
    exact Database.store_eq_ok.mpr ⟨after, added, rfl⟩
  · rw [rows, noMember]
    rfl

/-- In an empty database the base PC is added. -/
theorem loadBasePc_of_empty {db : Database} {group : Group}
    (found : db.segment.findById 1 = some group) (noPc : db.remotePc = Table.empty) :
    ∃ after, MegaVncApplication.loadBasePc db = .ok { db with remotePc := after } ∧
      after.rows = [freshBasePc] := by
  have missing : db.findByRepeaterId 100 = none := by
    rw [Database.findByRepeaterId, noPc]
    rfl
  have based : group.id = 1 := (Table.findById_eq_some.mp found).2
  have free : ∀ row ∈ db.remotePc.rows, row.repeaterId ≠ 100 := by
    intro row present
    rw [noPc] at present
    cases present
  have nameFits : varchar "BASE" = some "BASE" := by decide
  have passwordFits : varchar "1234" = some "1234" := by decide
  obtain ⟨next, inserted⟩ : ∃ next, db.insertRemotePc 100 "BASE" "1234" group.id = .ok next :=
    Database.exists_insertRemotePc free nameFits passwordFits
  obtain ⟨name, accessPassword, nameKept, passwordKept, -, after, rfl, rows, -⟩ :=
    Database.insertRemotePc_eq_ok inserted
  cases nameFits.symm.trans nameKept
  cases passwordFits.symm.trans passwordKept
  refine ⟨after, ?_, ?_⟩
  · rw [MegaVncApplication.loadBasePc, missing]
    exact bind_eq_ok.mpr ⟨group, orElseThrow_eq_ok.mpr found, inserted⟩
  · rw [rows, noPc, based]
    rfl

/-- The first start loads the base group, the administrator and the base PC. -/
theorem initial_rows (environment : Environment) :
    (initial environment).db.segment.rows = [{ id := 1, groupName := some "BaseGroup" }] ∧
      (initial environment).db.member.rows = [Member.createMember environment.encodePassword
        (some "admin") "!mb220719" .roleAdmin 1] ∧
      (initial environment).db.memberGroup.rows = [] ∧
      (initial environment).db.remotePc.rows = [freshBasePc] := by
  obtain ⟨grouped, groupLoaded, segment, noMember, noMemberGroup, noPc, inBase⟩ : ∃ grouped,
      MegaVncApplication.loadBaseGroup (Database.empty.skipKeys 0) = .ok grouped ∧
      grouped.segment.rows = [{ id := 1, groupName := some "BaseGroup" }] ∧
      grouped.member = Table.empty ∧ grouped.memberGroup.rows = [] ∧
      grouped.remotePc = Table.empty ∧
      grouped.segment.findById 1 = some { id := 1, groupName := some "BaseGroup" } :=
    ⟨_, rfl, rfl, rfl, rfl, rfl, rfl⟩
  obtain ⟨member, adminLoaded, memberRows⟩ :=
    loadAdmin_of_empty noMember environment.encodePassword_fits
  have administered : ({ grouped with member := member } : Database).segment.findById 1 =
      some { id := 1, groupName := some "BaseGroup" } := inBase
  obtain ⟨remotePc, pcLoaded, remotePcRows⟩ := loadBasePc_of_empty administered noPc
  have reached : (initial environment).db =
      { grouped with member := member, remotePc := remotePc } := by
    change (MegaVncApplication.dataLoader environment.encodePassword
      (Database.empty.skipKeys 0)).2 = _
    simp only [MegaVncApplication.dataLoader, groupLoaded, adminLoaded, pcLoaded]
  rw [reached]
  exact ⟨segment, memberRows, noMemberGroup, remotePcRows⟩

theorem exists_basePc_initial (environment : Environment) :
    ∃ remotePc ∈ (initial environment).db.remotePc.rows, IsBasePc remotePc := by
  rw [(initial_rows environment).2.2.2]
  exact ⟨freshBasePc, List.mem_singleton_self _, rfl, rfl, rfl⟩

/-- The base PC is never deleted. -/
theorem exists_basePc_step
    (before : ∃ remotePc ∈ world.db.remotePc.rows, IsBasePc remotePc) :
    ∃ remotePc ∈ (step environment world operation).db.remotePc.rows, IsBasePc remotePc := by
  obtain ⟨old, member, isFirst, isLowest, inBase⟩ := before
  rcases mem_step_of_mem environment operation member with
    ⟨new, present, sameId, rfl | change⟩ | ⟨deletes, -⟩
  · exact ⟨new, present, isFirst, isLowest, inBase⟩
  · obtain ⟨-, sameRepeaterId, -, -, sameGroup⟩ := change.sameIdentity
    exact ⟨new, present, sameId ▸ isFirst, sameRepeaterId ▸ isLowest, sameGroup ▸ inBase⟩
  · unfold Operation.Deletes at deletes
    split at deletes
    · exact (deletes.1 (deletes.2.symm.trans isFirst)).elim
    · exact (deletes.1 (deletes.2.symm.trans inBase)).elim
    · exact deletes.elim

/-- The base PC is there in every reachable state. -/
theorem Application.Reachable.exists_basePc (reached : Application.Reachable environment world) :
    ∃ remotePc ∈ world.db.remotePc.rows, IsBasePc remotePc :=
  Transition.Reachable.invariant
    (fun world => ∃ remotePc ∈ world.db.remotePc.rows, IsBasePc remotePc) reached
    (fun _ _ => exists_basePc_step) (exists_basePc_initial environment)

/-- Only a registration adds a PC. -/
theorem exists_sameIdentity_of_mem_step {operation : Operation} {new : RemotePc}
    (other : ¬ operation.Registers) (base : ∃ remotePc ∈ world.db.remotePc.rows, IsBasePc remotePc)
    (member : new ∈ (step environment world operation).db.remotePc.rows) :
    ∃ old ∈ world.db.remotePc.rows, old.SameIdentity new := by
  have self (row : RemotePc) : row.SameIdentity row := ⟨rfl, rfl, rfl, rfl, rfl⟩
  cases step_effect environment world operation with
  | kept rows nextKey => exact ⟨new, rows ▸ member, self new⟩
  | @changed old changed present change rows nextKey =>
      rw [rows] at member
      rcases Table.mem_replace.mp member with ⟨kept, -⟩ | ⟨rfl, -⟩
      · exact ⟨new, kept, self new⟩
      · exact ⟨old, present, change.sameIdentity⟩
  | registered registers =>
      exact (other (Operation.registers_of_registration registers)).elim
  | loaded starts missing rows nextKey =>
      obtain ⟨remotePc, present, based⟩ := base
      exact (missing remotePc present based.2.1).elim
  | deleted doomed decided deletes rows nextKey =>
      rw [rows] at member
      exact ⟨new, (Table.mem_deleteWhere.mp member).1, self new⟩

end MegaVnc
