import MegaVnc.System.RemotePcEffect

/-! # The exclusive grant of a PC

A call is granted a PC in two steps: the call stores its reconnectId, and the
repeater's SERVER_CONNECT assigns the PC. Only the second step makes the grant
exclusive. An assigned PC is given to nobody but the holder of its reconnectId
until that reconnectId is released.
-/

namespace MegaVnc

open Relational Application Transition

/-- The operation releases the PC that holds the reconnectId. -/
def Operation.Releases (environment : Environment) (world : World) (operation : Operation)
    (reconnectId : String) : Prop :=
  operation = .disAssignRemotePc reconnectId ∧
    (perform environment world operation).1 = .ok .done

instance (environment : Environment) (world : World) (operation : Operation)
    (reconnectId : String) : Decidable (operation.Releases environment world reconnectId) :=
  inferInstanceAs (Decidable (_ ∧ _))

/-- A call with another reconnectId is answered with the PC's id. -/
def Operation.GrantsOther (environment : Environment) (world : World) (operation : Operation)
    (repeaterId : Long) (reconnectId : String) : Prop :=
  ∃ remotePcDto, operation = .connectSettingRepeater remotePcDto ∧
    remotePcDto.reconnectId ≠ some reconnectId ∧
    (perform environment world operation).1 = .ok (.repeaterId repeaterId)

variable {environment : Environment} {world : World} {operation : Operation}
  {operations waiting : List Operation} {remotePc new : RemotePc} {repeaterId : Long}
  {reconnectId : String}

/-- The request that finds a PC releases it by its reconnectId. -/
theorem releases_of_found {released : String}
    (found : world.db.findByReconnectId released = .ok (some remotePc))
    (holds : remotePc.reconnectId = some reconnectId) :
    (Operation.disAssignRemotePc released).Releases environment world reconnectId := by
  have holder := (Database.findByReconnectId_eq_ok_some found).2
  have same : released = reconnectId := Option.some.inj (holder.symm.trans holds)
  obtain ⟨after, done, -⟩ := perform_disAssign found
  exact ⟨same ▸ rfl, by rw [done]⟩

/-- A PC keeps its reconnectId as long as it is not released and no call with
another one is granted it. -/
theorem RemotePc.Change.keeps_reconnectId (change : remotePc.Change world.db operation new)
    (kept : ¬ operation.Releases environment world reconnectId)
    (undisturbed : ¬ operation.GrantsOther environment world remotePc.repeaterId reconnectId)
    (short : reconnectId.length ≤ 255) (holds : remotePc.reconnectId = some reconnectId) :
    new.reconnectId = some reconnectId := by
  cases change with
  | @connected remotePcDto group sent kept inGroup found free given keeps answered =>
      rw [RemotePcApiService.connected_reconnectId]
      split
      · exact holds
      · by_contra different
        obtain ⟨next, connected⟩ := answered
        -- The column keeps the stored reconnectId as it is, so another one was sent.
        have other : remotePcDto.reconnectId ≠ some reconnectId := by
          intro same
          obtain rfl := Option.some.inj (given.symm.trans same)
          exact different (congrArg some (varchar_of_short keeps short))
        refine undisturbed ⟨remotePcDto, rfl, other, ?_⟩
        rw [perform_connect connected]
  | @released released found => exact (kept (releases_of_found found holds)).elim
  | @signalled now message evNum signals => exact holds

/-- An assigned PC is granted to nobody but the holder of its reconnectId. -/
theorem not_grantsOther_of_assigned (environment : Environment) (operation : Operation)
    (member : remotePc ∈ world.db.remotePc.rows) (assigned : remotePc.assignedAt ≠ none)
    (holds : remotePc.reconnectId = some reconnectId) :
    ¬ operation.GrantsOther environment world remotePc.repeaterId reconnectId := by
  rintro ⟨remotePcDto, rfl, different, granted⟩
  obtain ⟨found, present, sent, kept, sameId, given, -, free, -⟩ := connect_reply granted
  have same : found = remotePc := Table.eq_of_clash present member (clash_remotePc.mpr sameId)
  subst same
  rcases free with unassigned | taken
  · exact assigned unassigned
  · exact different (given.trans (taken.symm.trans holds))

/-- An event or a call never takes the assignment away. -/
theorem RemotePc.Change.stays_assigned (change : remotePc.Change world.db operation new)
    (kept : ¬ operation.Releases environment world reconnectId)
    (holds : remotePc.reconnectId = some reconnectId) (assigned : remotePc.assignedAt ≠ none) :
    new.assignedAt ≠ none := by
  cases change with
  | connected inGroup found free given keeps answered =>
      rwa [RemotePcApiService.connected_assignedAt]
  | @released released found => exact (kept (releases_of_found found holds)).elim
  | @signalled now message evNum signals =>
      rwa [MessageService.afterEvent, if_neg fun both => assigned both.1]

/-- A PC that is not deleted is there after the step, as it was or changed. -/
theorem exists_change_of_isGrant (environment : Environment) (client : operation.isGrant = true)
    (member : remotePc ∈ world.db.remotePc.rows) :
    ∃ new ∈ (step environment world operation).db.remotePc.rows,
      new = remotePc ∨ remotePc.Change world.db operation new := by
  rcases mem_step_of_mem environment operation member with ⟨new, present, -, changed⟩ | ⟨deletes, -⟩
  · exact ⟨new, present, changed⟩
  · unfold Operation.Deletes at deletes
    split at deletes
    · cases client
    · cases client
    · exact deletes.elim

/-- While a PC waits for its server, its reconnectId stays. -/
theorem exists_waiting_run (short : reconnectId.length ≤ 255)
    (clients : waiting.all Operation.isGrant = true)
    (undisturbed : Along (step environment) (fun world operation =>
      ¬ operation.Releases environment world reconnectId ∧
        ¬ operation.GrantsOther environment world repeaterId reconnectId) world waiting)
    (member : remotePc ∈ world.db.remotePc.rows) (named : remotePc.repeaterId = repeaterId)
    (holds : remotePc.reconnectId = some reconnectId) :
    ∃ new ∈ (run (step environment) world waiting).db.remotePc.rows,
      new.repeaterId = repeaterId ∧ new.reconnectId = some reconnectId := by
  induction waiting generalizing world remotePc with
  | nil => exact ⟨remotePc, member, named, holds⟩
  | cons operation rest ih =>
      rw [List.all_cons, Bool.and_eq_true] at clients
      obtain ⟨⟨kept, alone⟩, later⟩ := undisturbed
      obtain ⟨middle, present, changed⟩ :=
        exists_change_of_isGrant environment clients.1 member
      rcases changed with rfl | change
      · exact ih clients.2 later present named holds
      · have sameName := change.sameIdentity.2.1.symm.trans named
        have stillHolds := change.keeps_reconnectId kept (named ▸ alone) short holds
        exact ih clients.2 later present sameName stillHolds

/-- An assigned PC stays with its holder until the release. -/
theorem exists_held_run (short : reconnectId.length ≤ 255)
    (clients : operations.all Operation.isGrant = true)
    (kept : Along (step environment) (fun world operation =>
      ¬ operation.Releases environment world reconnectId) world operations)
    (member : remotePc ∈ world.db.remotePc.rows) (named : remotePc.repeaterId = repeaterId)
    (holds : remotePc.reconnectId = some reconnectId) (assigned : remotePc.assignedAt ≠ none) :
    ∃ new ∈ (run (step environment) world operations).db.remotePc.rows,
      new.repeaterId = repeaterId ∧ new.reconnectId = some reconnectId ∧
        new.assignedAt ≠ none := by
  induction operations generalizing world remotePc with
  | nil => exact ⟨remotePc, member, named, holds, assigned⟩
  | cons operation rest ih =>
      rw [List.all_cons, Bool.and_eq_true] at clients
      obtain ⟨middle, present, changed⟩ :=
        exists_change_of_isGrant environment clients.1 member
      rcases changed with rfl | change
      · exact ih clients.2 kept.2 present named holds assigned
      · have sameName := change.sameIdentity.2.1.symm.trans named
        have alone := not_grantsOther_of_assigned environment operation member assigned holds
        have stillHolds := change.keeps_reconnectId kept.1 alone short holds
        have stillAssigned := change.stays_assigned kept.1 holds assigned
        exact ih clients.2 kept.2 present sameName stillHolds stillAssigned

/-- A granted PC that was not granted to another client before its server
connected is granted to no other client until the release. -/
theorem grant_exclusive_once_assigned {first other : RequestRemotePcDto}
    (granted : (perform environment world (.connectSettingRepeater first)).1 =
      .ok (.repeaterId repeaterId))
    (sent : first.reconnectId = some reconnectId) (stored : reconnectId ≠ "default")
    (short : reconnectId.length ≤ 255)
    (waitingClients : waiting.all Operation.isGrant = true)
    (undisturbed : Along (step environment) (fun world operation =>
      ¬ operation.Releases environment world reconnectId ∧
        ¬ operation.GrantsOther environment world repeaterId reconnectId)
      (step environment world (.connectSettingRepeater first)) waiting)
    (member : remotePc ∈ (run (step environment)
      (step environment world (.connectSettingRepeater first)) waiting).db.remotePc.rows)
    (named : remotePc.repeaterId = repeaterId) (assigned : remotePc.assignedAt ≠ none)
    (clients : operations.all Operation.isGrant = true)
    (kept : Along (step environment) (fun world operation =>
      ¬ operation.Releases environment world reconnectId)
      (run (step environment) (step environment world (.connectSettingRepeater first)) waiting)
      operations)
    (different : other.reconnectId ≠ some reconnectId) :
    (perform environment (run (step environment)
        (step environment world (.connectSettingRepeater first)) (waiting ++ operations))
      (.connectSettingRepeater other)).1 ≠ .ok (.repeaterId repeaterId) := by
  obtain ⟨claimed, claimedIn, claimedName, claimedId⟩ :
      ∃ claimed ∈ (step environment world (.connectSettingRepeater first)).db.remotePc.rows,
        claimed.repeaterId = repeaterId ∧ claimed.reconnectId = some reconnectId := by
    obtain ⟨found, present, given, stays, sameId, gave, keeps, -, rows⟩ := connect_reply granted
    have same : given = reconnectId := Option.some.inj (gave.symm.trans sent)
    subst same
    obtain rfl : stays = given := varchar_of_short keeps short
    refine ⟨RemotePcApiService.connected stays found, ?_, ?_, ?_⟩
    · rw [rows]
      exact Table.mem_replace.mpr (Or.inr ⟨rfl, found, present, by simp⟩)
    · rw [RemotePcApiService.connected_repeaterId, sameId]
    · rw [RemotePcApiService.connected_reconnectId, if_neg stored]
  obtain ⟨waited, waitedIn, waitedName, waitedId⟩ :=
    exists_waiting_run short waitingClients undisturbed claimedIn claimedName claimedId
  have same : waited = remotePc :=
    Table.eq_of_clash waitedIn member (clash_remotePc.mpr (waitedName.trans named.symm))
  subst same
  obtain ⟨held, heldIn, rfl, heldId, stillAssigned⟩ :=
    exists_held_run short clients kept member named waitedId assigned
  rw [run_append]
  intro answered
  exact not_grantsOther_of_assigned environment _ heldIn stillAssigned heldId
    ⟨other, rfl, different, answered⟩

theorem basePc_grant_exclusive :
    (perform .dev (run (step .dev) (initial .dev) [.connectSettingRepeater (baseConnect "app-1"),
        baseServerConnect, .disAssignRemotePc "app-2"])
      (.connectSettingRepeater (baseConnect "app-2"))).1 ≠ .ok (.repeaterId 100) := by
  let assignedPc : RemotePc :=
    { id := 1, repeaterId := 100, name := "BASE", assignedAt := some 1704067200000
      status := .standby, accessPassword := "1234", reconnectId := some "app-1", group := 1 }
  have quiet : Along (step .dev) (fun world operation =>
      ¬ operation.Releases .dev world "app-1" ∧ ¬ operation.GrantsOther .dev world 100 "app-1")
      (step .dev (initial .dev) (.connectSettingRepeater (baseConnect "app-1")))
      [baseServerConnect] := by
    refine ⟨⟨by decide +kernel, ?_⟩, trivial⟩
    rintro ⟨remotePcDto, call, -⟩
    cases call
  have granted : (perform .dev (initial .dev) (.connectSettingRepeater (baseConnect "app-1"))).1 =
      .ok (.repeaterId 100) := by
    decide +kernel
  have member : assignedPc ∈ (run (step .dev) (step .dev (initial .dev)
      (.connectSettingRepeater (baseConnect "app-1"))) [baseServerConnect]).db.remotePc.rows := by
    decide +kernel
  have kept : Along (step .dev) (fun world operation => ¬ operation.Releases .dev world "app-1")
      (run (step .dev) (step .dev (initial .dev) (.connectSettingRepeater (baseConnect "app-1")))
        [baseServerConnect]) [.disAssignRemotePc "app-2"] := by
    decide +kernel
  exact grant_exclusive_once_assigned granted rfl (by decide) (by decide) rfl quiet member rfl
    (by decide) rfl kept (by decide)

/-- Before the server connects, a second client is granted the same PC. -/
theorem grant_shared_before_assignment :
    ¬ ∀ (environment : Environment) (world : World) (first other : RequestRemotePcDto)
        (operations : List Operation) (repeaterId : Long) (reconnectId otherId : String),
      Reachable environment world →
      first.reconnectId = some reconnectId → reconnectId ≠ "default" →
      other.reconnectId = some otherId → otherId ≠ "default" → otherId ≠ reconnectId →
      (perform environment world (.connectSettingRepeater first)).1 =
        .ok (.repeaterId repeaterId) →
      operations.all Operation.isGrant →
      Along (step environment) (fun world operation =>
          ¬ operation.Releases environment world reconnectId)
        (step environment world (.connectSettingRepeater first)) operations →
      (perform environment (run (step environment)
          (step environment world (.connectSettingRepeater first)) operations)
        (.connectSettingRepeater other)).1 ≠ .ok (.repeaterId repeaterId) := by
  intro exclusive
  refine exclusive .dev (initial .dev) (baseConnect "app-1") (baseConnect "app-2") [] 100
    "app-1" "app-2" (Transition.Reachable.refl _) rfl (by decide) rfl (by decide) (by decide)
    ?_ rfl trivial ?_
  · decide +kernel
  · decide +kernel

end MegaVnc
