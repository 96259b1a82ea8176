import Mathlib.Data.List.Find
import Mathlib.Data.List.Permutation
import MegaVnc.Foundation.ReadModifyWrite
import MegaVnc.System.Holder

/-! # Calls and events on one PC, interleaved

A call of a client reads the PC when its transaction runs and writes it when the
transaction commits; an event reads it in one transaction and saves its copy in
another. In between, other calls and events can read and write the same row, and
a write stores every column of the copy it was computed from.
-/

namespace MegaVnc

open Relational Fallible Application Transition
open MessageService (Signals afterEvent parseMessage validNumbers handlePcEvent handleEvent
  processMessage handlePcEvent_world)
open RemotePcApiService (connected connectTransaction disAssignTransaction)

/-- What an operation holds between its read and its write. -/
inductive InFlight where
  | managed (entity : Managed)
  | detached (now : Date) (eventMessage : EventMessage) (remotePc : RemotePc)
  | ended
deriving DecidableEq

namespace InFlight

/-- A transaction that throws has nothing left to do. -/
def ofTransaction : Except Exception Managed → InFlight
  | .ok entity => .managed entity
  | .error _ => .ended

/-- The read of a call or an event. -/
def read (db : Database) : Operation → InFlight
  | .connectSettingRepeater remotePcDto => ofTransaction (connectTransaction db remotePcDto)
  | .disAssignRemotePc reconnectId => ofTransaction (disAssignTransaction db reconnectId)
  | .processMessage now message =>
      match parseMessage message with
      | .error _ => .ended
      | .ok eventMessage =>
          if eventMessage.evNum ∈ validNumbers then
            match db.findByRepeaterId eventMessage.getRepeaterId with
            | none => .ended
            | some remotePc => .detached now eventMessage remotePc
          else .ended
  | _ => .ended

/-- The write of a call or an event. -/
def write (world : World) : InFlight → World
  | .managed entity =>
      match world.db.flush entity with
      | .ok db => world.withDb db
      | .error _ => world
  | .detached now eventMessage remotePc => (handlePcEvent world now eventMessage remotePc).2
  | .ended => world

/-- The row as it was read. -/
def copy : InFlight → Option RemotePc
  | .managed entity => some entity.loaded
  | .detached _ _ remotePc => some remotePc
  | .ended => none

/-- The row the write stores. -/
def row : InFlight → Option RemotePc
  | .managed entity => entity.dirty.bind fit
  | .detached now eventMessage remotePc => some (afterEvent now eventMessage.evNum remotePc)
  | .ended => none

end InFlight

/-- A call that reads, and writes at its commit, is the two steps without a pause. -/
theorem transact_flush (world : World) (transaction : Except Exception Managed)
    (reply : Managed → Reply) :
    (transact world do
      let entity ← transaction
      let db ← world.db.flush entity
      pure (reply entity, db)).2 = (InFlight.ofTransaction transaction).write world := by
  cases transaction with
  | error exception => rfl
  | ok entity =>
      simp only [ok_bind, InFlight.ofTransaction, InFlight.write]
      cases world.db.flush entity <;> rfl

/-- A call or an event is its read and its write, when nothing comes between. -/
theorem step_eq_write_read (environment : Environment) (world : World) {operation : Operation}
    (grant : operation.isGrant = true) :
    step environment world operation = (InFlight.read world.db operation).write world := by
  cases operation with
  | connectSettingRepeater remotePcDto =>
      change _ = (InFlight.ofTransaction _).write world
      rw [← transact_flush world _ fun entity => .repeaterId entity.current.repeaterId]
      change (transact world (RemotePcApiService.connectSettingRepeater _ _ >>= _)).2 = _
      rw [RemotePcApiService.connectSettingRepeater, bind_assoc]
      simp only [bind_assoc, pure_bind]
  | disAssignRemotePc reconnectId =>
      change _ = (InFlight.ofTransaction _).write world
      rw [← transact_flush world _ fun _ => .done]
      change (transact world (RemotePcApiService.disAssignRemotePcByRepeaterId _ _ >>= _)).2 = _
      rw [RemotePcApiService.disAssignRemotePcByRepeaterId, bind_assoc]
  | processMessage now message =>
      change (processMessage world now message).2 = _
      unfold processMessage handleEvent
      cases parsed : parseMessage message with
      | error exception =>
          simp only [InFlight.read, parsed]
          rfl
      | ok eventMessage =>
          by_cases concerned : eventMessage.evNum ∈ validNumbers
          · simp only [InFlight.read, parsed, concerned, ↓reduceIte]
            cases world.db.findByRepeaterId eventMessage.getRepeaterId <;> rfl
          · simp only [InFlight.read, parsed, concerned, ↓reduceIte]
            rfl
  | _ => cases grant

/-! ### One row under many operations -/

/-- What an operation holds once it has read the row of its PC. -/
def InFlight.ofRow (operation : Operation) (row : RemotePc) : InFlight :=
  match operation with
  | .connectSettingRepeater remotePcDto =>
      match remotePcDto.reconnectId with
      | none => .ended
      | some reconnectId =>
          if (row.assignedAt = none ∨ row.reconnectId = some reconnectId) ∧
              remotePcDto.accessPassword = some row.accessPassword then
            .managed { loaded := row, current := connected reconnectId row }
          else .ended
  | .disAssignRemotePc reconnectId =>
      if row.reconnectId = some reconnectId then
        .managed { loaded := row, current := row.disAssign }
      else .ended
  | .processMessage now message =>
      match parseMessage message with
      | .error _ => .ended
      | .ok eventMessage =>
          if eventMessage.evNum ∈ validNumbers then .detached now eventMessage row else .ended
  | _ => .ended

/-- The operation is a call or an event that concerns one PC and no other. -/
def Operation.On (db : Database) (remotePc : RemotePc) : Operation → Prop
  | .connectSettingRepeater remotePcDto =>
      ∃ group, db.findByGroupName remotePcDto.groupName = some group ∧
        (db.findByName remotePcDto.pcName).find? (fun row => row.group = group.id) =
          some remotePc
  | .disAssignRemotePc reconnectId =>
      ∀ other ∈ db.remotePc.rows, other.reconnectId = some reconnectId → other = remotePc
  | .processMessage _ message =>
      ∃ eventMessage, parseMessage message = .ok eventMessage ∧
        eventMessage.getRepeaterId = remotePc.repeaterId
  | _ => False

/-- A state that differs from the first one at most in the row of one PC. -/
structure OnlyRow (first : World) (remotePc row : RemotePc) (world : World) : Prop where
  segment : world.db.segment = first.db.segment
  rows : world.db.remotePc.rows = Table.replace first.db.remotePc.rows row
  same : remotePc.SameIdentity row

variable {first world : World} {remotePc row copy other : RemotePc} {operation : Operation}

theorem Operation.On.isGrant (on : operation.On first.db remotePc) : operation.isGrant = true := by
  cases operation <;> first | rfl | exact on.elim

/-- At first the row is as it was. -/
theorem onlyRow_self (present : remotePc ∈ first.db.remotePc.rows) :
    OnlyRow first remotePc remotePc first where
  segment := rfl
  rows := (Table.replace_self present).symm
  same := ⟨rfl, rfl, rfl, rfl, rfl⟩

theorem OnlyRow.mem (only : OnlyRow first remotePc row world)
    (present : remotePc ∈ first.db.remotePc.rows) : row ∈ world.db.remotePc.rows := by
  rw [only.rows]
  exact Table.mem_replace.mpr (Or.inr ⟨rfl, remotePc, present, only.same.1⟩)

/-- The other rows are those of the first state. -/
theorem OnlyRow.eq_or_mem (only : OnlyRow first remotePc row world)
    (member : other ∈ world.db.remotePc.rows) :
    other = row ∨ other ∈ first.db.remotePc.rows ∧ other.id ≠ remotePc.id := by
  rw [only.rows] at member
  rcases Table.mem_replace.mp member with ⟨kept, different⟩ | ⟨replaced, -⟩
  · exact Or.inr ⟨kept, fun same => different (same.trans only.same.1)⟩
  · exact Or.inl replaced

/-- A search by name and group finds the PC as long as nothing else changes. -/
theorem OnlyRow.find_named (only : OnlyRow first remotePc row world)
    (present : remotePc ∈ first.db.remotePc.rows) {pcName : Option String} {group : Group}
    (found : (first.db.findByName pcName).find? (fun row => row.group = group.id) =
      some remotePc) :
    (world.db.findByName pcName).find? (fun row => row.group = group.id) = some row := by
  unfold Database.findByName at found ⊢
  rw [List.find?_filter] at found ⊢
  rw [only.rows, Table.replace, List.find?_map]
  have kept : ∀ old ∈ first.db.remotePc.rows,
      ((fun row : RemotePc => decide (decide (some row.name = pcName) = true ∧
        decide (row.group = group.id) = true)) ∘
          fun old => if key old = key row then row else old) old =
        decide (decide (some old.name = pcName) = true ∧ decide (old.group = group.id) = true) := by
    intro old member
    rw [Function.comp_apply]
    by_cases hit : key old = key row
    · have unique : old = remotePc :=
        Table.eq_of_key_eq member present (hit.trans only.same.1.symm)
      rw [if_pos hit, unique, only.same.2.2.1, only.same.2.2.2.2]
    · rw [if_neg hit]
  rw [List.find?_congr kept, found, Option.map_some, key_remotePc, key_remotePc, if_pos only.same.1]

namespace InFlight

/-- A call that fails writes nothing. -/
theorem ofTransaction_of_no_ok {transaction : Except Exception Managed}
    (fails : ∀ entity, transaction ≠ .ok entity) : ofTransaction transaction = .ended := by
  cases transaction with
  | error exception => rfl
  | ok entity => exact (fails entity rfl).elim

/-- A call of a client on the PC depends on nothing but its row. -/
theorem read_connect (only : OnlyRow first remotePc row world)
    (present : remotePc ∈ first.db.remotePc.rows) {remotePcDto : RequestRemotePcDto}
    (on : (Operation.connectSettingRepeater remotePcDto).On first.db remotePc) :
    ofTransaction (connectTransaction world.db remotePcDto) =
      ofRow (.connectSettingRepeater remotePcDto) row := by
  obtain ⟨group, inGroup, found⟩ := on
  have sameGroup : world.db.findByGroupName remotePcDto.groupName = some group := by
    rw [← inGroup, Database.findByGroupName, Database.findByGroupName, only.segment]
  have named := only.find_named present found
  simp only [ofRow]
  split
  · next absent =>
      apply ofTransaction_of_no_ok
      intro entity answered
      obtain ⟨_, _, _, _, _, _, _, given, _⟩ :=
        RemotePcApiService.connectTransaction_eq_ok.mp answered
      rw [absent] at given
      cases given
  · next reconnectId given =>
      split
      · next granted =>
          rw [RemotePcApiService.connectTransaction_eq_ok.mpr ⟨group, row, reconnectId,
            sameGroup, named, granted.1, granted.2, given, rfl⟩]
          rfl
      · next refused =>
          apply ofTransaction_of_no_ok
          intro entity answered
          obtain ⟨other, candidate, sent, otherGroup, candidateFound, free, password, sends, -⟩ :=
            RemotePcApiService.connectTransaction_eq_ok.mp answered
          cases sameGroup.symm.trans otherGroup
          cases named.symm.trans candidateFound
          cases given.symm.trans sends
          exact refused ⟨free, password⟩

/-- A release finds the PC when its row holds the reconnectId, and fails else. -/
theorem read_disAssign (only : OnlyRow first remotePc row world)
    (present : remotePc ∈ first.db.remotePc.rows) {reconnectId : String}
    (on : (Operation.disAssignRemotePc reconnectId).On first.db remotePc) :
    ofTransaction (disAssignTransaction world.db reconnectId) =
      ofRow (.disAssignRemotePc reconnectId) row := by
  have alone : ∀ other ∈ world.db.remotePc.rows, other.reconnectId = some reconnectId →
      other = row := by
    intro other member holds
    rcases only.eq_or_mem member with same | ⟨before, different⟩
    · exact same
    · exact (different (congrArg RemotePc.id (on other before holds))).elim
  simp only [ofRow]
  split
  · next holds =>
      rw [RemotePcApiService.disAssignTransaction_eq_ok.mpr ⟨row,
        Database.findByReconnectId_of_alone (only.mem present) holds alone, rfl⟩]
      rfl
  · next free =>
      apply ofTransaction_of_no_ok
      intro entity released
      obtain ⟨holder, found, -⟩ := RemotePcApiService.disAssignTransaction_eq_ok.mp released
      obtain ⟨member, holds⟩ := Database.findByReconnectId_eq_ok_some found
      exact free (alone holder member holds ▸ holds)

/-- An operation on the PC depends on nothing but its row. -/
theorem read_eq (only : OnlyRow first remotePc row world)
    (present : remotePc ∈ first.db.remotePc.rows) (on : operation.On first.db remotePc) :
    read world.db operation = ofRow operation row := by
  cases operation with
  | connectSettingRepeater remotePcDto => exact read_connect only present on
  | disAssignRemotePc reconnectId => exact read_disAssign only present on
  | processMessage now message =>
      obtain ⟨eventMessage, parsed, named⟩ := on
      have found : world.db.findByRepeaterId eventMessage.getRepeaterId = some row :=
        Database.findByRepeaterId_eq_some.mpr
          ⟨only.mem present, only.same.2.1.symm.trans named.symm⟩
      simp only [read, ofRow, parsed, found]
  | _ => exact on.elim

/-- An operation on a row ends without a write, leaves an entity of a
transaction, or leaves a copy of the row. -/
theorem ofRow_cases (operation : Operation) (copy : RemotePc) :
    ofRow operation copy = .ended ∨
      (∃ current, copy.SameIdentity current ∧
        ofRow operation copy = .managed { loaded := copy, current := current }) ∨
      ∃ now eventMessage, eventMessage.evNum ∈ validNumbers ∧
        ofRow operation copy = .detached now eventMessage copy := by
  cases operation with
  | connectSettingRepeater remotePcDto =>
      simp only [ofRow]
      split
      · exact Or.inl rfl
      · next reconnectId _ =>
          split
          · refine Or.inr (Or.inl ⟨connected reconnectId copy, ?_, rfl⟩)
            unfold connected
            split <;> exact ⟨rfl, rfl, rfl, rfl, rfl⟩
          · exact Or.inl rfl
  | disAssignRemotePc reconnectId =>
      simp only [ofRow]
      split
      · exact Or.inr (Or.inl ⟨copy.disAssign, ⟨rfl, rfl, rfl, rfl, rfl⟩, rfl⟩)
      · exact Or.inl rfl
  | processMessage now message =>
      simp only [ofRow]
      split
      · exact Or.inl rfl
      · next eventMessage _ =>
          split
          · next concerned => exact Or.inr (Or.inr ⟨now, eventMessage, concerned, rfl⟩)
          · exact Or.inl rfl
  | _ => exact Or.inl rfl

/-- What is written was computed from the copy that was read. -/
theorem copy_of_row {new : RemotePc} (writes : (ofRow operation copy).row = some new) :
    (ofRow operation copy).copy = some copy := by
  rcases ofRow_cases operation copy with held | ⟨current, -, held⟩ | ⟨now, eventMessage, -, held⟩
  · rw [held] at writes
    cases writes
  · rw [held, InFlight.copy]
  · rw [held, InFlight.copy]

end InFlight

/-- A replaced row is the only difference. -/
theorem OnlyRow.replaced {next : World} {new : RemotePc} (only : OnlyRow first remotePc row world)
    (same : remotePc.SameIdentity new) (segment : next.db.segment = world.db.segment)
    (rows : next.db.remotePc.rows = Table.replace world.db.remotePc.rows new) :
    OnlyRow first remotePc new next where
  segment := segment.trans only.segment
  rows := by
    rw [rows, only.rows, Table.replace_replace (only.same.1.symm.trans same.1)]
  same := same

/-- A write stores its row in the place of whatever the row of the PC has become. -/
theorem OnlyRow.write (only : OnlyRow first remotePc row world)
    (present : remotePc ∈ first.db.remotePc.rows) (same : remotePc.SameIdentity copy)
    (fits : fit copy = some copy) :
    OnlyRow first remotePc ((InFlight.ofRow operation copy).row.getD row)
      ((InFlight.ofRow operation copy).write world) := by
  have stored := only.mem present
  have sameId {new : RemotePc} (kept : copy.SameIdentity new) : row.id = new.id :=
    only.same.1.symm.trans (same.1.trans kept.1)
  have sameRepeaterId {new : RemotePc} (kept : copy.SameIdentity new) :
      row.repeaterId = new.repeaterId :=
    only.same.2.1.symm.trans (same.2.1.trans kept.2.1)
  rcases InFlight.ofRow_cases operation copy with
    held | ⟨current, kept, held⟩ | ⟨now, eventMessage, concerned, held⟩
  · rw [held]
    exact only
  · rw [held]
    simp only [InFlight.row, InFlight.write, Database.flush, Managed.dirty]
    by_cases clean : current = copy
    · rw [if_pos clean]
      exact only
    · rw [if_neg clean]
      cases keeps : fit current with
      | some new =>
          obtain ⟨next, written⟩ := Database.updateRemotePc_of_mem stored (sameId kept)
            (sameRepeaterId kept) keeps
          obtain ⟨_, again, after, rfl, rows, -⟩ := Database.updateRemotePc_eq_ok written
          cases keeps.symm.trans again
          simp only [written, Option.bind_some, keeps, Option.getD_some]
          exact only.replaced (same.trans (kept.fit fits keeps)) rfl rows
      | none =>
          cases outcome : world.db.updateRemotePc current with
          | ok next =>
              obtain ⟨_, again, -⟩ := Database.updateRemotePc_eq_ok outcome
              cases keeps.symm.trans again
          | error exception =>
              simp only [outcome, Option.bind_some, keeps, Option.getD_none]
              exact only
  · rw [held]
    have self : copy.SameIdentity copy := ⟨rfl, rfl, rfl, rfl, rfl⟩
    obtain ⟨after, accessLogs, broadcasts, changed, rows, -⟩ :=
      @handlePcEvent_world world now eventMessage copy row stored (sameId self)
        (sameRepeaterId self) fits concerned
    simp only [InFlight.row, InFlight.write, Option.getD_some, changed]
    exact only.replaced (same.trans ⟨rfl, rfl, rfl, rfl, rfl⟩) rfl rows

/-! ### Interleaved reads and writes -/

/-- The operations that have read and still have to write. -/
structure Interleaved where
  world : World
  inFlight : List InFlight

namespace Interleaved

/-- Nothing has been read yet. -/
def start (world : World) : Interleaved where
  world := world
  inFlight := []

/-- A read starts an operation; a write is what the operation does at its end. -/
def step (state : Interleaved) : ReadModifyWrite.Action Operation → Interleaved
  | .read operation =>
      { state with inFlight := state.inFlight ++ [InFlight.read state.world.db operation] }
  | .write position =>
      match state.inFlight[position]? with
      | none => state
      | some held =>
          { world := held.write state.world
            inFlight := state.inFlight.eraseIdx position }

/-- The operations whose write stores a row, in the order of their writes; `reading` are
the ones in flight, in the order in which they have read. -/
def writers (state : Interleaved) (reading : List Operation) :
    List (ReadModifyWrite.Action Operation) → List Operation
  | [] => []
  | action :: rest =>
      match action with
      | .read operation => (step state (.read operation)).writers (reading ++ [operation]) rest
      | .write position =>
          let later := (step state (.write position)).writers (reading.eraseIdx position) rest
          if (state.inFlight[position]?.bind InFlight.row).isSome then
            reading[position]?.toList ++ later
          else later

/-- A write meets its row as it was read. -/
def Unchanged (state : Interleaved) (action : ReadModifyWrite.Action Operation) : Prop :=
  ∀ position held copy, action = .write position → state.inFlight[position]? = some held →
    held.row.isSome → held.copy = some copy → copy ∈ state.world.db.remotePc.rows

end Interleaved

/-- The row an operation stores when it has read a row. -/
def rowWritten (operation : Operation) (row : RemotePc) : Option RemotePc :=
  (InFlight.ofRow operation row).row

/-- The interleaved state is one row with the operations that have read it, and
their copies. -/
structure Interleaved.Shows (first : World) (remotePc : RemotePc)
    (abstract : ReadModifyWrite.State RemotePc Operation) (state : Interleaved) : Prop where
  only : OnlyRow first remotePc abstract.current state.world
  held : state.inFlight = abstract.pending.map fun entry => InFlight.ofRow entry.1 entry.2
  copies : ∀ entry ∈ abstract.pending, remotePc.SameIdentity entry.2 ∧ fit entry.2 = some entry.2

section Simulation

open ReadModifyWrite (Action reads serial exists_serial exists_order)

variable {abstract : ReadModifyWrite.State RemotePc Operation} {state : Interleaved}
  {operations : List Operation} {actions : List (Action Operation)}

/-- A complete operation on the PC changes its row as the abstract one does. -/
theorem OnlyRow.step (only : OnlyRow first remotePc row world)
    (present : remotePc ∈ first.db.remotePc.rows) (on : operation.On first.db remotePc)
    (environment : Environment) :
    OnlyRow first remotePc (ReadModifyWrite.perform rowWritten row operation)
      (Application.step environment world operation) := by
  rw [step_eq_write_read environment world on.isGrant, InFlight.read_eq only present on]
  exact only.write present only.same (world.db.remotePc.rows_fit row (only.mem present))

/-- Complete operations on the PC, one after another. -/
theorem OnlyRow.run (only : OnlyRow first remotePc row world)
    (present : remotePc ∈ first.db.remotePc.rows)
    (on : ∀ operation ∈ operations, operation.On first.db remotePc) (environment : Environment) :
    OnlyRow first remotePc (serial rowWritten row operations)
      (Transition.run (Application.step environment) world operations) := by
  induction operations generalizing row world with
  | nil => exact only
  | cons operation rest ih =>
      exact ih (only.step present (on operation List.mem_cons_self) environment)
        fun later member => on later (List.mem_cons_of_mem _ member)

namespace Interleaved

/-- At the start nothing is in flight on either side. -/
theorem shows_start (present : remotePc ∈ first.db.remotePc.rows) :
    Shows first remotePc (ReadModifyWrite.start remotePc) (start first) where
  only := onlyRow_self present
  held := rfl
  copies _ member := nomatch member

/-- A read is the same on both sides. -/
theorem shows_read (simulates : Shows first remotePc abstract state)
    (present : remotePc ∈ first.db.remotePc.rows) (on : operation.On first.db remotePc) :
    Shows first remotePc (ReadModifyWrite.step rowWritten abstract (.read operation))
      (step state (.read operation)) where
  only := simulates.only
  held := by
    change state.inFlight ++ [_] = (abstract.pending ++ [_]).map _
    rw [List.map_append, simulates.held, InFlight.read_eq simulates.only present on]
    rfl
  copies entry member := by
    rcases List.mem_append.mp member with old | new
    · exact simulates.copies entry old
    · rw [List.mem_singleton.mp new]
      exact ⟨simulates.only.same,
        state.world.db.remotePc.rows_fit _ (simulates.only.mem present)⟩

/-- A write stores the same row on both sides. -/
theorem shows_write (simulates : Shows first remotePc abstract state)
    (present : remotePc ∈ first.db.remotePc.rows) (position : Nat) :
    Shows first remotePc (ReadModifyWrite.step rowWritten abstract (.write position))
      (step state (.write position)) := by
  have waiting : state.inFlight[position]? =
      abstract.pending[position]?.map fun entry => InFlight.ofRow entry.1 entry.2 := by
    rw [simulates.held, List.getElem?_map]
  cases found : abstract.pending[position]? with
  | none =>
      rw [found, Option.map_none] at waiting
      rw [ReadModifyWrite.step_write_of_none found]
      simp only [step, waiting]
      exact simulates
  | some entry =>
      obtain ⟨operation, copy⟩ := entry
      obtain ⟨same, fits⟩ := simulates.copies _ (List.mem_of_getElem? found)
      rw [found, Option.map_some] at waiting
      rw [ReadModifyWrite.step_write_of_some found]
      simp only [step, waiting]
      refine ⟨simulates.only.write present same fits, ?_, ?_⟩
      · change state.inFlight.eraseIdx position = _
        rw [simulates.held, List.eraseIdx_map]
      · intro entry member
        exact simulates.copies entry ((List.eraseIdx_sublist _ _).subset member)

/-- Each step of the database is one of the row. -/
theorem shows_step (simulates : Shows first remotePc abstract state)
    (present : remotePc ∈ first.db.remotePc.rows) {action : Action Operation}
    (on : ∀ operation ∈ reads [action], operation.On first.db remotePc) :
    Shows first remotePc (ReadModifyWrite.step rowWritten abstract action) (step state action) := by
  cases action with
  | read operation => exact shows_read simulates present (on operation List.mem_cons_self)
  | write position => exact shows_write simulates present position

/-- A write that meets its row as it was read does so in the abstract state. -/
theorem unchanged_abstract (simulates : Shows first remotePc abstract state)
    {action : Action Operation} (unchanged : Unchanged state action) :
    ReadModifyWrite.Unchanged rowWritten abstract action := by
  rintro position operation copy new rfl found writes
  have waiting : state.inFlight[position]? = some (InFlight.ofRow operation copy) := by
    rw [simulates.held, List.getElem?_map, found, Option.map_some]
  have held : (InFlight.ofRow operation copy).row = some new := writes
  have member := unchanged position _ copy rfl waiting (by rw [held]; rfl)
    (InFlight.copy_of_row held)
  have sameId := (simulates.copies _ (List.mem_of_getElem? found)).1.1
  rcases simulates.only.eq_or_mem member with same | ⟨-, different⟩
  · exact same
  · exact (different sameId.symm).elim

/-- The interleaved run is simulated by the abstract one. -/
theorem shows_run (simulates : Shows first remotePc abstract state)
    (present : remotePc ∈ first.db.remotePc.rows)
    (on : ∀ operation ∈ reads actions, operation.On first.db remotePc) :
    Shows first remotePc (Transition.run (ReadModifyWrite.step rowWritten) abstract actions)
        (Transition.run step state actions) ∧
      (Along step Unchanged state actions →
        Along (ReadModifyWrite.step rowWritten) (ReadModifyWrite.Unchanged rowWritten) abstract
          actions) := by
  induction actions generalizing abstract state with
  | nil => exact ⟨simulates, id⟩
  | cons action rest ih =>
      have split : reads (action :: rest) = reads [action] ++ reads rest :=
        List.filterMap_append (l := [action])
      rw [split] at on
      have next := shows_step simulates present
        fun operation member => on operation (List.mem_append_left _ member)
      obtain ⟨reached, later⟩ := ih next
        fun operation member => on operation (List.mem_append_right _ member)
      exact ⟨reached, fun along => ⟨unchanged_abstract simulates along.1, later along.2⟩⟩

/-- The writers of the interleaved run are those of the abstract one. -/
theorem writers_eq (simulates : Shows first remotePc abstract state)
    (present : remotePc ∈ first.db.remotePc.rows)
    (on : ∀ operation ∈ reads actions, operation.On first.db remotePc) :
    state.writers (abstract.pending.map Prod.fst) actions =
      ReadModifyWrite.writers rowWritten abstract actions := by
  induction actions generalizing abstract state with
  | nil => rfl
  | cons action rest ih =>
      have split : reads (action :: rest) = reads [action] ++ reads rest :=
        List.filterMap_append (l := [action])
      rw [split] at on
      have next := shows_step simulates present
        fun operation member => on operation (List.mem_append_left _ member)
      have later := ih next fun operation member => on operation (List.mem_append_right _ member)
      cases action with
      | read operation =>
          simp only [writers, ReadModifyWrite.writers]
          rw [← later]
          simp only [ReadModifyWrite.step, List.map_append, List.map_cons, List.map_nil]
      | write position =>
          have erased : (ReadModifyWrite.step rowWritten abstract (.write position)).pending.map
              Prod.fst = (abstract.pending.map Prod.fst).eraseIdx position := by
            cases found : abstract.pending[position]? with
            | none =>
                rw [ReadModifyWrite.step_write_of_none found, List.eraseIdx_of_length_le]
                rw [List.length_map]
                exact List.getElem?_eq_none_iff.mp found
            | some entry =>
                rw [ReadModifyWrite.step_write_of_some found, List.eraseIdx_map]
          rw [erased] at later
          simp only [writers, ReadModifyWrite.writers, later, simulates.held, List.getElem?_map]
          cases found : abstract.pending[position]? with
          | none => rfl
          | some entry => rfl

end Interleaved

/-- Calls and events on one PC, in any interleaving of their reads and writes:
its row is what some of the writers leave when they run one after another, in the
order of their writes and with the last writer at the end. It is what all operations
leave in some order when every write meets the row as it was read. -/
theorem interleaved_serializable (environment : Environment)
    (present : remotePc ∈ first.db.remotePc.rows)
    (on : ∀ operation ∈ reads actions, operation.On first.db remotePc)
    (finished : (Transition.run Interleaved.step (Interleaved.start first) actions).inFlight =
      []) :
    ∃ final ∈ (Transition.run Interleaved.step (Interleaved.start first)
        actions).world.db.remotePc.rows,
      final.id = remotePc.id ∧
      ((Interleaved.start first).writers [] actions).Subperm (reads actions) ∧
      (∃ chain, chain.Sublist ((Interleaved.start first).writers [] actions) ∧
        chain.getLast? = ((Interleaved.start first).writers [] actions).getLast? ∧
        final ∈ (Transition.run (Application.step environment) first chain).db.remotePc.rows) ∧
      (Along Interleaved.step Interleaved.Unchanged (Interleaved.start first) actions →
        ∃ order, order.Perm (reads actions) ∧
          final ∈ (Transition.run (Application.step environment) first
            order).db.remotePc.rows) := by
  obtain ⟨reached, later⟩ :=
    Interleaved.shows_run (Interleaved.shows_start present) present on
  have ended : (Transition.run (ReadModifyWrite.step rowWritten) (ReadModifyWrite.start remotePc)
      actions).pending = [] := by
    have none := reached.held
    rw [finished] at none
    exact List.map_eq_nil_iff.mp none.symm
  have serially {chain : List Operation} (among : chain ⊆ reads actions) :
      serial rowWritten remotePc chain ∈
        (Transition.run (Application.step environment) first chain).db.remotePc.rows :=
    ((onlyRow_self present).run present (fun operation member => on operation (among member))
      environment).mem present
  have writers : (Interleaved.start first).writers [] actions =
      ReadModifyWrite.writers rowWritten (ReadModifyWrite.start remotePc) actions :=
    Interleaved.writers_eq (Interleaved.shows_start present) present on
  obtain ⟨fewer, chain, inside, last, same⟩ := exists_serial ended
  rw [← writers] at fewer inside last
  refine ⟨_, reached.only.mem present, reached.only.same.1.symm, fewer, ?_, ?_⟩
  · rw [same]
    exact ⟨chain, inside, last, serially fun _ member => fewer.subset (inside.subset member)⟩
  · intro unchanged
    obtain ⟨order, all, same⟩ := exists_order (later unchanged) ended
    rw [same]
    exact ⟨order, all, serially all.subset⟩

end Simulation

/-- VIEWER_SERVER_SESSION_START of the base PC, a minute after its server came. -/
def baseSessionStartLine : String :=
  "EvMsgVer:1,EvNum:4,Time:1704067260,Pid:4321,SvrTblInd:0,VwrTblInd:0,Code:100,Mode:2," ++
    "SvrIp:192.168.0.10,VwrIp:10.0.0.255"

/-- A session of the base PC starts. -/
def baseSessionStart : Operation :=
  .processMessage 1704067260000 baseSessionStartLine

/-- The client releases the base PC between the read and the save of the event. -/
def releaseDuringEvent : List (ReadModifyWrite.Action Operation) :=
  [.read baseSessionStart, .read (.disAssignRemotePc "app-1"), .write 1, .write 0]

/-- The line is read for the event it writes. -/
theorem baseSessionStartLine_parsed :
    parseMessage baseSessionStartLine =
      .ok { evMsgVer := 1, evNum := 4, time := 1704067260, pid := 4321, code := 100, mode := 2
            svrIp := some "192.168.0.10", vwrIp := some "10.0.0.255" } := by
  decide +kernel

theorem namedBasePc_mem : namedBasePc ∈ namedBase.db.remotePc.rows := by
  decide +kernel

/-- Both operations are on the base PC. -/
theorem releaseDuringEvent_on :
    ∀ operation ∈ ReadModifyWrite.reads releaseDuringEvent,
      operation.On namedBase.db namedBasePc := by
  intro operation member
  have listed : operation ∈ [baseSessionStart, .disAssignRemotePc "app-1"] := member
  rcases List.mem_pair.mp listed with rfl | rfl
  · exact ⟨_, baseSessionStartLine_parsed, rfl⟩
  · change ∀ other ∈ namedBase.db.remotePc.rows, _
    decide +kernel

theorem releaseDuringEvent_finished :
    (Transition.run Interleaved.step (Interleaved.start namedBase)
      releaseDuringEvent).inFlight = [] := by
  decide +kernel

theorem releaseDuringEvent_serializable :
    ∃ final ∈ (Transition.run Interleaved.step (Interleaved.start namedBase)
        releaseDuringEvent).world.db.remotePc.rows,
      final.id = namedBasePc.id ∧
      ((Interleaved.start namedBase).writers [] releaseDuringEvent).Subperm
        (ReadModifyWrite.reads releaseDuringEvent) ∧
      (∃ chain, chain.Sublist ((Interleaved.start namedBase).writers [] releaseDuringEvent) ∧
        chain.getLast? =
          ((Interleaved.start namedBase).writers [] releaseDuringEvent).getLast? ∧
        final ∈ (Transition.run (Application.step .dev) namedBase chain).db.remotePc.rows) ∧
      (Along Interleaved.step Interleaved.Unchanged (Interleaved.start namedBase)
          releaseDuringEvent →
        ∃ order, order.Perm (ReadModifyWrite.reads releaseDuringEvent) ∧
          final ∈ (Transition.run (Application.step .dev) namedBase order).db.remotePc.rows) :=
  interleaved_serializable .dev namedBasePc_mem releaseDuringEvent_on releaseDuringEvent_finished

/-- The event stores the assignment and the reconnectId it has read before the
release: the release is lost, though its client was answered. -/
theorem release_lost :
    ¬ ∀ (environment : Environment) (world : World) (remotePc final : RemotePc)
        (actions : List (ReadModifyWrite.Action Operation)), Reachable environment world →
      remotePc ∈ world.db.remotePc.rows →
      (∀ operation ∈ ReadModifyWrite.reads actions, operation.On world.db remotePc) →
      (Transition.run Interleaved.step (Interleaved.start world) actions).inFlight = [] →
      final ∈ (Transition.run Interleaved.step (Interleaved.start world)
        actions).world.db.remotePc.rows → final.id = remotePc.id →
      ∃ order, order.Perm (ReadModifyWrite.reads actions) ∧
        ∃ row ∈ (Transition.run (Application.step environment) world order).db.remotePc.rows,
          row.id = remotePc.id ∧ row.status = final.status ∧
            row.assignedAt = final.assignedAt ∧ row.reconnectId = final.reconnectId := by
  intro serializable
  obtain ⟨order, all, row, member, -, -, -, same⟩ :=
    serializable .dev namedBase namedBasePc { namedBasePc with status := .active }
      releaseDuringEvent ⟨nameAndConnect, rfl⟩ namedBasePc_mem releaseDuringEvent_on
      releaseDuringEvent_finished (by decide +kernel) rfl
  have released (order : List Operation)
      (either : order = [baseSessionStart, .disAssignRemotePc "app-1"] ∨
        order = [.disAssignRemotePc "app-1", baseSessionStart]) :
      ∀ row ∈ (Transition.run (Application.step .dev) namedBase order).db.remotePc.rows,
        row.reconnectId = some "" := by
    rcases either with rfl | rfl <;> decide +kernel
  have kept : some "" = some "app-1" :=
    (released order (List.perm_pair.mp all) row member).symm.trans same
  exact absurd (Option.some.inj kept) (by decide)

end MegaVnc
