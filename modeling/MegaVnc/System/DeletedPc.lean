import MegaVnc.Foundation.Tasks
import MegaVnc.System.DomainIntegrity
import MegaVnc.System.Interleaving
import MegaVnc.System.RepeaterId

/-! # Deleted PCs and events in flight

An event reads its PC in one transaction and saves the copy in another. A save
whose row is gone stores the copy as a new row: when the PC is deleted between
the two, the event brings it back under a new key. A copy whose group is gone
too is refused by the foreign key.
-/

namespace MegaVnc

open Relational Fallible Application Transition
open MessageService (handlePcEvent setStatusAndLog parseMessage validNumbers)

/-- Events in steps, among operations of any kind. -/
def handling (environment : Environment) :
    Tasks.System World InFlight (Date × String) Operation where
  launch world event := some (InFlight.read world.db (.processMessage event.1 event.2))
  advance world held := (held.write world, none)
  operate := step environment

variable {environment : Environment} {world next : World} {operation : Operation}
  {copy remotePc new : RemotePc} {now : Date} {eventMessage : EventMessage}

/-! ### What the save of an event does -/

/-- The copy is saved with another status and assignment; nothing else of groups
and PCs changes. -/
inductive Saves (world : World) (copy : RemotePc) (next : World) : Prop where
  | stored {new : RemotePc} {written : Database} (same : copy.SameIdentity new)
      (fits : fit new = some new) (saved : world.db.saveRemotePc new = .ok written)
      (segment : next.db.segment = world.db.segment)
      (remotePc : next.db.remotePc = written.remotePc)
  | refused (segment : next.db.segment = world.db.segment)
      (remotePc : next.db.remotePc = world.db.remotePc)

/-- Saving a status writes the copy, or fails and writes nothing. -/
theorem setStatusAndLog_saves (world : World) (now : Date) (fits : fit copy = some copy)
    (status : Status) (division : String) (ip : Option String) :
    Saves world copy (setStatusAndLog world now copy status division ip).2 := by
  have same : copy.SameIdentity (RemotePcService.applyStatus now status copy) := by
    rw [RemotePcService.applyStatus_eq]
    exact ⟨rfl, rfl, rfl, rfl, rfl⟩
  have fits := RemotePcService.fit_applyStatus now status fits
  simp only [setStatusAndLog, RemotePcService.setRemotePcStatus, World.sendStatusUpdate_db]
  cases saved : world.db.saveRemotePc (RemotePcService.applyStatus now status copy) with
  | error exception => exact .refused rfl rfl
  | ok written =>
      obtain ⟨after, rfl, -⟩ := Database.saveRemotePc_eq_ok fits saved
      simp only [World.withDb_db]
      split
      · exact .stored same fits saved rfl rfl
      · next logged =>
          obtain ⟨accessLogs, rfl⟩ := MessageService.saveAccessLog_eq_ok logged
          exact .stored same fits saved rfl rfl

/-- An event saves its copy of the row. -/
theorem handlePcEvent_saves (fits : fit copy = some copy)
    (concerned : eventMessage.evNum ∈ validNumbers) :
    Saves world copy (handlePcEvent world now eventMessage copy).2 := by
  obtain ⟨status, division, ip, handled, -⟩ :=
    MessageService.handlePcEvent_eq world now copy concerned
  rw [handled]
  exact setStatusAndLog_saves world now fits status division ip

/-! ### Copies in flight -/

/-- The row of the copy is stored. -/
def Stored (world : World) (copy : RemotePc) : Prop :=
  ∃ row ∈ world.db.remotePc.rows, copy.SameIdentity row

/-- The PC is gone for good, and so is its group. -/
structure GoneWithGroup (world : World) (copy : RemotePc) : Prop where
  row : ∀ row ∈ world.db.remotePc.rows, row.id ≠ copy.id
  id : copy.id < world.db.remotePc.nextKey
  group : ∀ group ∈ world.db.segment.rows, group.id ≠ copy.group
  groupId : copy.group < world.db.segment.nextKey

/-- An event in flight whose save makes no new row. -/
def Anchored (world : World) : InFlight → Prop
  | .managed _ => False
  | .detached _ eventMessage copy =>
      eventMessage.evNum ∈ validNumbers ∧ fit copy = some copy ∧
        (Stored world copy ∨ GoneWithGroup world copy)
  | .ended => True

/-- What the loader needs, and the foreign key of the PCs. -/
structure Grounded (world : World) : Prop where
  basePc : ∃ remotePc ∈ world.db.remotePc.rows, IsBasePc remotePc
  baseGroup : ∃ group ∈ world.db.segment.rows, group.id = 1
  pcGroups : ∀ remotePc ∈ world.db.remotePc.rows, ∃ group ∈ world.db.segment.rows,
    group.id = remotePc.group

/-- Reachable states are grounded. -/
theorem Application.Reachable.grounded (reached : Application.Reachable environment world) :
    Grounded world where
  basePc := reached.exists_basePc
  baseGroup := reached.intact.baseGroup
  pcGroups := reached.intact.referring.pcGroups

/-- Each operation keeps a state grounded. -/
theorem Grounded.step (grounded : Grounded world) :
    Grounded (step environment world operation) where
  basePc := exists_basePc_step grounded.basePc
  baseGroup := (step_directoryEffect environment world operation).baseGroup grounded.baseGroup
  pcGroups := pcGroups_step grounded.basePc grounded.baseGroup grounded.pcGroups

/-- The same groups, and the same PCs up to status, assignment and
reconnectId. -/
structure SamePcs (world next : World) : Prop where
  segment : next.db.segment = world.db.segment
  nextKey : next.db.remotePc.nextKey = world.db.remotePc.nextKey
  old : ∀ new ∈ next.db.remotePc.rows, Stored world new
  new : ∀ old ∈ world.db.remotePc.rows, Stored next old

/-- The same tables have the same PCs. -/
theorem samePcs_of_eq (segment : next.db.segment = world.db.segment)
    (remotePc : next.db.remotePc = world.db.remotePc) : SamePcs world next where
  segment := segment
  nextKey := congrArg Table.nextKey remotePc
  old new member := ⟨new, remotePc ▸ member, rfl, rfl, rfl, rfl, rfl⟩
  new old member := ⟨old, remotePc ▸ member, rfl, rfl, rfl, rfl, rfl⟩

/-- The save of an anchored copy changes its row, or fails. -/
theorem Saves.samePcs (saves : Saves world copy next)
    (anchored : Stored world copy ∨ GoneWithGroup world copy) : SamePcs world next := by
  cases saves with
  | refused segment remotePc => exact samePcs_of_eq segment remotePc
  | @stored new written same fits saved segment remotePc =>
      obtain ⟨after, rfl, ⟨⟨row, present, sameId⟩, rows, nextKey⟩ | ⟨missing, inGroup, -⟩⟩ :=
        Database.saveRemotePc_eq_ok fits saved
      · rcases anchored with ⟨stored, storedIn, sameRow⟩ | gone
        · have rowIs : stored = row :=
            Table.eq_of_key_eq storedIn present ((sameRow.1.symm.trans same.1).trans sameId.symm)
          subst rowIs
          have rewritten : stored.SameIdentity new := sameRow.symm.trans same
          change next.db.remotePc = after at remotePc
          refine ⟨segment, remotePc ▸ nextKey, fun other member => ?_, fun other member => ?_⟩
          · rw [remotePc, rows] at member
            rcases Table.mem_replace.mp member with ⟨kept, -⟩ | ⟨rfl, -⟩
            · exact ⟨other, kept, rfl, rfl, rfl, rfl, rfl⟩
            · exact ⟨stored, present, rewritten.symm⟩
          · unfold Stored
            rw [remotePc, rows]
            by_cases hit : other.id = new.id
            · have otherIs : other = stored :=
                Table.eq_of_key_eq member present (hit.trans sameId.symm)
              exact ⟨new, Table.mem_replace.mpr (Or.inr ⟨rfl, other, member, hit⟩),
                otherIs ▸ rewritten⟩
            · exact ⟨other, Table.mem_replace.mpr (Or.inl ⟨member, hit⟩), rfl, rfl, rfl, rfl, rfl⟩
        · exact (gone.row row present (sameId.trans same.1.symm)).elim
      · rcases anchored with ⟨row, present, sameRow⟩ | gone
        · exact (missing row present (sameRow.1.symm.trans same.1)).elim
        · obtain ⟨group, groupIn, named⟩ := inGroup
          exact (gone.group group groupIn (named.trans same.2.2.2.2.symm)).elim

namespace SamePcs

theorem stored (same : SamePcs world next) (before : Stored world copy) : Stored next copy := by
  obtain ⟨row, present, sameRow⟩ := before
  obtain ⟨later, laterIn, sameLater⟩ := same.new row present
  exact ⟨later, laterIn, sameRow.trans sameLater⟩

/-- What is gone stays gone. -/
theorem goneWithGroup (same : SamePcs world next) (gone : GoneWithGroup world copy) :
    GoneWithGroup next copy where
  row new member := by
    obtain ⟨old, present, sameOld⟩ := same.old new member
    exact sameOld.1 ▸ gone.row old present
  id := same.nextKey ▸ gone.id
  group := same.segment ▸ gone.group
  groupId := same.segment ▸ gone.groupId

/-- An event in flight stays anchored while the PCs are the same. -/
theorem anchored (same : SamePcs world next) {held : InFlight} (before : Anchored world held) :
    Anchored next held := by
  cases held with
  | managed entity => exact before
  | ended => exact before
  | detached now eventMessage copy =>
      obtain ⟨concerned, fits, stored | gone⟩ := before
      · exact ⟨concerned, fits, Or.inl (same.stored stored)⟩
      · exact ⟨concerned, fits, Or.inr (same.goneWithGroup gone)⟩

/-- The state stays grounded. -/
theorem grounded (same : SamePcs world next) (before : Grounded world) : Grounded next where
  basePc := by
    obtain ⟨old, present, based⟩ := before.basePc
    obtain ⟨new, member, sameNew⟩ := same.new old present
    exact ⟨new, member, sameNew.1 ▸ based.1, sameNew.2.1 ▸ based.2.1,
      sameNew.2.2.2.2 ▸ based.2.2⟩
  baseGroup := same.segment ▸ before.baseGroup
  pcGroups new member := by
    obtain ⟨old, present, sameOld⟩ := same.old new member
    rw [same.segment, sameOld.2.2.2.2]
    exact before.pcGroups old present

end SamePcs

/-- The write of an anchored event. -/
theorem Anchored.samePcs {held : InFlight} (anchored : Anchored world held) :
    SamePcs world (held.write world) := by
  cases held with
  | managed entity => exact anchored.elim
  | ended => exact samePcs_of_eq rfl rfl
  | detached now eventMessage copy =>
      obtain ⟨concerned, fits, anchored⟩ := anchored
      exact (handlePcEvent_saves fits concerned).samePcs anchored

/-- An event in flight has read a stored row. -/
theorem anchored_read (world : World) (now : Date) (message : String) :
    Anchored world (InFlight.read world.db (.processMessage now message)) := by
  cases parsed : parseMessage message with
  | error exception =>
      simp only [InFlight.read, parsed]
      trivial
  | ok eventMessage =>
      by_cases concerned : eventMessage.evNum ∈ validNumbers
      · cases found : world.db.findByRepeaterId eventMessage.getRepeaterId with
        | none =>
            simp only [InFlight.read, parsed, concerned, ↓reduceIte, found]
            trivial
        | some remotePc =>
            obtain ⟨member, -⟩ := Database.findByRepeaterId_eq_some.mp found
            simp only [InFlight.read, parsed, concerned, ↓reduceIte, found]
            exact ⟨concerned, world.db.remotePc.rows_fit remotePc member,
              Or.inl ⟨remotePc, member, rfl, rfl, rfl, rfl, rfl⟩⟩
      · simp only [InFlight.read, parsed, concerned, ↓reduceIte]
        trivial

/-! ### Operations while events are in flight -/

/-- Ids are not given out again, of PCs or of groups. -/
theorem GoneWithGroup.step (gone : GoneWithGroup world copy) (grounded : Grounded world) :
    GoneWithGroup (step environment world operation) copy where
  row new member := by
    rcases mem_of_mem_step member with
      ⟨old, present, sameId, -⟩ | ⟨repeaterId, name, accessPassword, group, id, fresh, rfl⟩
    · exact sameId ▸ gone.row old present
    · exact fun same => Int.not_lt_of_ge fresh (lt_of_eq_of_lt same gone.id)
  id := Int.lt_of_lt_of_le gone.id nextKey_le_step
  group group member := by
    rcases (step_directoryEffect environment world operation).old_group grounded.baseGroup
      member with old | fresh
    · exact gone.group group old
    · exact fun same => Int.lt_irrefl _ (fresh ▸ same ▸ gone.groupId)
  groupId := Int.lt_of_lt_of_le gone.groupId (segment_nextKey_le_step grounded.baseGroup)

/-- A stored copy stays stored, or its group is deleted, or its PC is deleted
alone. -/
theorem Stored.step (stored : Stored world copy) (grounded : Grounded world)
    (environment : Environment) (operation : Operation) :
    Stored (step environment world operation) copy ∨
      GoneWithGroup (step environment world operation) copy ∨
      ∃ user id, operation = .deleteRemotePc user id ∧ ∃ row ∈ world.db.remotePc.rows,
        copy.id = row.id ∧ operation.Removes environment world row := by
  obtain ⟨row, present, same⟩ := stored
  rcases mem_step_of_mem environment operation present with
    ⟨new, member, -, rfl | change⟩ | ⟨deletes, gone⟩
  · exact Or.inl ⟨new, member, same⟩
  · exact Or.inl ⟨new, member, same.trans change.sameIdentity⟩
  · cases operation with
    | deleteRemotePc user id => exact Or.inr (Or.inr ⟨user, id, rfl, row, present, same.1, gone⟩)
    | deleteGroup groupId =>
        have inGroup : row.group = groupId := deletes.2
        obtain ⟨group, groupIn, named⟩ := grounded.pcGroups row present
        rcases deleteGroup_cases environment world groupId with kept | ⟨-, emptied⟩
        · rw [kept] at gone
          exact (gone row present rfl).elim
        · have groupKept : copy.group = groupId := same.2.2.2.2.trans inGroup
          refine Or.inr (Or.inl ⟨same.1 ▸ gone, ?_, groupKept ▸ emptied, ?_⟩)
          · have below := world.db.remotePc.keys_below row present
            exact Int.lt_of_lt_of_le (same.1 ▸ below) nextKey_le_step
          · have below := world.db.segment.keys_below group groupIn
            have sameGroup : key group = copy.group := named.trans same.2.2.2.2.symm
            exact Int.lt_of_lt_of_le (sameGroup ▸ below)
              (segment_nextKey_le_step grounded.baseGroup)
    | _ => exact deletes.elim

/-- No PC is deleted alone while an event that has read it is in flight. -/
def SparesRead (environment : Environment) (state : Tasks.State World InFlight)
    (action : Tasks.Action (Date × String) Operation) : Prop :=
  ∀ user id, action = .operate (.deleteRemotePc user id) →
    ∀ remotePc ∈ state.shared.db.remotePc.rows,
      (Operation.deleteRemotePc user id).Removes environment state.shared remotePc →
      ∀ held ∈ state.tasks, ∀ copy ∈ held.copy, copy.id ≠ remotePc.id

/-- All events in flight are anchored. -/
def AllAnchored : Tasks.State World InFlight → Prop :=
  Tasks.Sound Grounded Anchored

variable {state : Tasks.State World InFlight} {action : Tasks.Action (Date × String) Operation}
  {actions : List (Tasks.Action (Date × String) Operation)}

/-- A step that spares the PCs of events in flight keeps all of them anchored. -/
theorem AllAnchored.step (anchored : AllAnchored state)
    (spares : SparesRead environment state action) :
    AllAnchored ((handling environment).step state action) := by
  apply Tasks.Sound.step anchored
  · intro event held _ launched
    cases launched
    exact anchored_read state.shared event.1 event.2
  · intro position held _ found
    have same := (anchored.holds held (List.mem_of_getElem? found)).samePcs
    refine ⟨same.grounded anchored.valid, fun next ended => absurd ended (Option.not_mem_none next),
      fun other waiting => ?_⟩
    exact same.anchored (anchored.holds other (Tasks.mem_of_mem_eraseIdx waiting))
  · intro operation operates
    refine ⟨anchored.valid.step, fun held waiting => ?_⟩
    have before := anchored.holds held waiting
    cases held with
    | managed entity => exact before
    | ended => trivial
    | detached now eventMessage copy =>
        obtain ⟨concerned, fits, stored | gone⟩ := before
        · refine ⟨concerned, fits, ?_⟩
          rcases stored.step anchored.valid environment operation with
            stays | gone | ⟨user, id, rfl, row, present, same, removed⟩
          · exact Or.inl stays
          · exact Or.inr gone
          · exact (spares user id operates row present removed _ waiting copy rfl same).elim
        · exact ⟨concerned, fits, Or.inr (gone.step anchored.valid)⟩

/-- A run of such steps keeps all of them anchored. -/
theorem allAnchored_run (reached : Application.Reachable environment world)
    (spares : Along (handling environment).step (SparesRead environment) (Tasks.start world)
      actions) : AllAnchored (run (handling environment).step (Tasks.start world) actions) :=
  spares.run_invariant AllAnchored (fun _ _ spares anchored => anchored.step spares)
    (Tasks.sound_start reached.grounded)

/-- Only a registration makes a new row. -/
theorem AllAnchored.old_or_registers (anchored : AllAnchored state)
    (member : new ∈ ((handling environment).step state action).shared.db.remotePc.rows) :
    (∃ old ∈ state.shared.db.remotePc.rows, old.id = new.id) ∨
      ∃ operation, action = .operate operation ∧ operation.Registers := by
  cases action with
  | launch event => exact Or.inl ⟨new, member, rfl⟩
  | advance position =>
      cases found : state.tasks[position]? with
      | none =>
          rw [Tasks.System.step, found] at member
          exact Or.inl ⟨new, member, rfl⟩
      | some held =>
          rw [Tasks.System.step, found] at member
          have same := (anchored.holds held (List.mem_of_getElem? found)).samePcs
          obtain ⟨old, present, sameOld⟩ := same.old new member
          exact Or.inl ⟨old, present, sameOld.1.symm⟩
  | operate operation =>
      by_cases registers : operation.Registers
      · exact Or.inr ⟨operation, rfl, registers⟩
      · obtain ⟨old, present, same⟩ :=
          exists_sameIdentity_of_mem_step registers anchored.valid.basePc member
        exact Or.inl ⟨old, present, same.1⟩

/-- After a PC was deleted by a user, no step but a registration makes a new row
with its repeaterId. -/
def StaysDeleted (environment : Environment) (world : World)
    (actions : List (Tasks.Action (Date × String) Operation)) : Prop :=
  ∀ before user id between action after,
    actions = before ++ .operate (.deleteRemotePc user id) :: (between ++ action :: after) →
    ∀ remotePc ∈ (run (handling environment).step (Tasks.start world)
        before).shared.db.remotePc.rows,
      (Operation.deleteRemotePc user id).Removes environment
        (run (handling environment).step (Tasks.start world) before).shared remotePc →
      ∀ new ∈ (run (handling environment).step (Tasks.start world)
          (before ++ .operate (.deleteRemotePc user id) ::
            (between ++ [action]))).shared.db.remotePc.rows,
        new.repeaterId = remotePc.repeaterId →
        (∀ old ∈ (run (handling environment).step (Tasks.start world)
            (before ++ .operate (.deleteRemotePc user id) :: between)).shared.db.remotePc.rows,
          old.id ≠ new.id) →
        ∃ operation, action = .operate operation ∧ operation.Registers

/-- A deleted PC stays deleted as long as no event that has read it is in flight
at the deletion. -/
theorem deleted_stays_deleted (reached : Application.Reachable environment world)
    (spares : Along (handling environment).step (SparesRead environment) (Tasks.start world)
      actions) : StaysDeleted environment world actions := by
  intro before user id between action after split remotePc _ _ new member _ fresh
  rw [split, ← List.cons_append, ← List.append_assoc] at spares
  have anchored := allAnchored_run reached (along_append.mp spares).1
  rw [← List.cons_append, ← List.append_assoc, run_append] at member
  rcases anchored.old_or_registers member with ⟨old, present, same⟩ | registers
  · exact (fresh old present same).elim
  · exact registers

/-! ### A deletion between the read and the save -/

/-- SERVER_DISCONNECT of the PC with repeaterId 101. -/
def labDisconnectLine : String :=
  "EvMsgVer:1,EvNum:3,Time:1704067200,Pid:4321,TblInd:0,Code:101,Mode:2,Ip:192.168.0.11"

/-- The PC of the laboratory is deleted while an event of the base PC is in
flight. -/
theorem deletedLabPc_stays_deleted :
    StaysDeleted .dev laboratory
      [.launch (1704067260000, baseSessionStartLine), .operate (.deleteRemotePc adminUser 2),
        .advance 0] := by
  apply deleted_stays_deleted ⟨_, rfl⟩
  refine ⟨fun _ _ operates => ?_, fun user id operates remotePc present removed => ?_,
    fun _ _ operates => ?_, trivial⟩
  · cases operates
  · cases operates
    have spared : remotePc.id ≠ 1 := by
      intro isBase
      exact removed freshBasePc (by decide +kernel) isBase.symm
    have read : ∀ held ∈ [InFlight.read laboratory.db
        (.processMessage 1704067260000 baseSessionStartLine)], ∀ copy ∈ held.copy, copy.id = 1 := by
      decide +kernel
    intro held waiting copy copied same
    exact spared (same.symm.trans (read held waiting copy copied))
  · cases operates

/-- A user deletes the PC while the event of its disconnection is in flight. -/
theorem deletedLabPc_reappears :
    ¬ ∀ (environment : Environment) (world : World)
        (actions : List (Tasks.Action (Date × String) Operation)),
      Application.Reachable environment world → StaysDeleted environment world actions := by
  intro stays
  have present : labPc 101 "PC-1" 2 ∈ laboratory.db.remotePc.rows := by
    decide +kernel
  have removed : (Operation.deleteRemotePc adminUser 2).Removes .dev laboratory
      (labPc 101 "PC-1" 2) := by
    unfold Operation.Removes
    decide +kernel
  have back : { labPc 101 "PC-1" 3 with status := .offline } ∈
      (run (handling .dev).step (Tasks.start laboratory)
        [.launch (1704067200000, labDisconnectLine), .operate (.deleteRemotePc adminUser 2),
          .advance 0]).shared.db.remotePc.rows := by
    decide +kernel
  have fresh : ∀ old ∈ (run (handling .dev).step (Tasks.start laboratory)
      [.launch (1704067200000, labDisconnectLine),
        .operate (.deleteRemotePc adminUser 2)]).shared.db.remotePc.rows, old.id ≠ 3 := by
    decide +kernel
  obtain ⟨_, operates, -⟩ := stays .dev laboratory
    [.launch (1704067200000, labDisconnectLine), .operate (.deleteRemotePc adminUser 2), .advance 0]
    ⟨_, rfl⟩ [.launch (1704067200000, labDisconnectLine)] adminUser 2 [] (.advance 0) [] rfl
    (labPc 101 "PC-1" 2) present removed _ back rfl fresh
  cases operates

end MegaVnc
