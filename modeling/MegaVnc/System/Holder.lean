import MegaVnc.System.Assignment

/-! # Who holds a reconnectId

A client names its PC by the reconnectId it chose, when it connects again and
when it releases the PC. The name is good when no other PC holds it. The code
does not check that, so it is the clients' part to choose fresh names; a PC whose
server connected before any client is assigned without a name.
-/

namespace MegaVnc

open Relational Application Transition

/-- An answered call stores, as the column keeps it, a reconnectId that no other PC
holds; the empty one and the sentinel name no PC. -/
def Operation.StoresFreshId (environment : Environment) (world : World) (operation : Operation) :
    Prop :=
  ∀ remotePcDto repeaterId sent reconnectId, operation = .connectSettingRepeater remotePcDto →
    (perform environment world operation).1 = .ok (.repeaterId repeaterId) →
    remotePcDto.reconnectId = some sent → varchar sent = some reconnectId →
    reconnectId ≠ "" → reconnectId ≠ "default" →
    ∀ holder ∈ world.db.remotePc.rows, holder.reconnectId = some reconnectId →
      holder.repeaterId = repeaterId

/-- When the server of an unassigned PC connects, a client has named the PC. -/
def Operation.AssignsNamed (world : World) (operation : Operation) : Prop :=
  ∀ remotePc ∈ world.db.remotePc.rows, operation.ServerConnects remotePc.repeaterId →
    remotePc.assignedAt = none → remotePc.reconnectId ≠ some ""

/-- A reconnectId names one PC. -/
def NamesApart (db : Database) : Prop :=
  ∀ first ∈ db.remotePc.rows, ∀ second ∈ db.remotePc.rows,
    first.reconnectId = second.reconnectId → first.reconnectId ≠ some "" → first = second

variable {environment : Environment} {world : World} {operation : Operation}
  {operations : List Operation} {remotePc old new : RemotePc}

/-- A change gives the PC a reconnectId that was its own, that is empty, or that
is fresh. -/
theorem RemotePc.Change.reconnectId_fresh (change : old.Change world.db operation new)
    (fresh : operation.StoresFreshId environment world) (member : old ∈ world.db.remotePc.rows)
    {other : RemotePc} (present : other ∈ world.db.remotePc.rows)
    (same : other.reconnectId = new.reconnectId) (named : other.reconnectId ≠ some "") :
    other = old ∨ other.reconnectId = old.reconnectId := by
  cases change with
  | @connected remotePcDto group sent kept inGroup found free given keeps answered =>
      rw [RemotePcApiService.connected_reconnectId] at same
      split at same
      · exact Or.inr same
      · next stored =>
          obtain ⟨next, connected⟩ := answered
          have replied : (perform environment world (.connectSettingRepeater remotePcDto)).1 =
              .ok (.repeaterId old.repeaterId) := by
            rw [perform_connect connected]
          have filled : kept ≠ "" := fun empty => named (empty ▸ same)
          have sameName := fresh remotePcDto old.repeaterId sent kept rfl replied given keeps
            filled stored other present same
          exact Or.inl (Table.eq_of_clash present member (clash_remotePc.mpr sameName))
  | released found => exact (named same).elim
  | signalled signals => exact Or.inr same

/-- A new PC has no name yet. -/
theorem NamesApart.added {added : RemotePc} (apart : NamesApart world.db)
    (unnamed : added.reconnectId = some "") :
    ∀ first ∈ world.db.remotePc.rows ++ [added], ∀ second ∈ world.db.remotePc.rows ++ [added],
      first.reconnectId = second.reconnectId → first.reconnectId ≠ some "" → first = second := by
  intro first firstIn second secondIn same named
  rcases List.mem_append.mp firstIn with firstKept | firstNew
  · rcases List.mem_append.mp secondIn with secondKept | secondNew
    · exact apart first firstKept second secondKept same named
    · rw [List.mem_singleton.mp secondNew, unnamed] at same
      exact (named same).elim
  · rw [List.mem_singleton.mp firstNew] at named
    exact (named unnamed).elim

/-- A reconnectId that is stored only where it is new stays that of one PC. -/
theorem namesApart_step (fresh : operation.StoresFreshId environment world)
    (apart : NamesApart world.db) : NamesApart (step environment world operation).db := by
  intro first firstIn second secondIn same named
  cases step_effect environment world operation with
  | kept rows nextKey =>
      rw [rows] at firstIn secondIn
      exact apart first firstIn second secondIn same named
  | @changed old new present change rows nextKey =>
      have sameId := change.sameIdentity.1
      -- A PC that holds the name of the changed one is the changed one.
      have alone : ∀ other ∈ world.db.remotePc.rows, key other ≠ key new →
          other.reconnectId = new.reconnectId → other.reconnectId ≠ some "" → False := by
        intro other otherIn differs shares filled
        rcases change.reconnectId_fresh fresh present otherIn shares filled with rfl | holds
        · exact differs sameId
        · exact differs ((congrArg key (apart other otherIn old present holds filled)).trans sameId)
      rw [rows] at firstIn secondIn
      rcases Table.mem_replace.mp firstIn with ⟨firstKept, firstOther⟩ | ⟨rfl, -⟩
      · rcases Table.mem_replace.mp secondIn with ⟨secondKept, -⟩ | ⟨rfl, -⟩
        · exact apart first firstKept second secondKept same named
        · exact (alone first firstKept firstOther same named).elim
      · rcases Table.mem_replace.mp secondIn with ⟨secondKept, secondOther⟩ | ⟨rfl, -⟩
        · exact (alone second secondKept secondOther same.symm (same ▸ named)).elim
        · rfl
  | registered registers accepted nameFits passwordFits rows nextKey =>
      rw [rows] at firstIn secondIn
      exact apart.added rfl first firstIn second secondIn same named
  | loaded starts missing rows nextKey =>
      rw [rows] at firstIn secondIn
      exact apart.added rfl first firstIn second secondIn same named
  | deleted doomed decided deletes rows nextKey =>
      rw [rows] at firstIn secondIn
      exact apart first (Table.mem_deleteWhere.mp firstIn).1 second
        (Table.mem_deleteWhere.mp secondIn).1 same named

/-- The first start adds at most one PC, without a name. -/
theorem namesApart_initial (environment : Environment) : NamesApart (initial environment).db := by
  apply namesApart_step
  · intro remotePcDto repeaterId sent reconnectId other
    cases other
  · intro first member
    cases member

/-- Names stay apart through a run whose connects bring new names. -/
theorem namesApart_run (fresh : Along (step environment) (fun world operation =>
      operation.StoresFreshId environment world) (initial environment) operations) :
    NamesApart (run (step environment) (initial environment) operations).db :=
  fresh.run_invariant (fun world => NamesApart world.db)
    (fun _ _ keeps apart => namesApart_step keeps apart) (namesApart_initial environment)

/-- Every assigned PC has a name. -/
def AssignedNamed (db : Database) : Prop :=
  ∀ remotePc ∈ db.remotePc.rows, remotePc.assignedAt ≠ none → remotePc.reconnectId ≠ some ""

/-- An assignment of a PC with a reconnectId keeps the assigned ones named. -/
theorem assignedNamed_step (assigns : operation.AssignsNamed world)
    (before : AssignedNamed world.db) : AssignedNamed (step environment world operation).db := by
  intro new member assigned
  rcases mem_of_mem_step member with
    ⟨old, present, -, rfl | change⟩ | ⟨repeaterId, name, accessPassword, group, id, -, rfl⟩
  · exact before new present assigned
  · by_cases unassigned : old.assignedAt = none
    · have connects := (change.assignedAt unassigned).mp assigned
      have named := assigns old present connects unassigned
      cases change with
      | connected inGroup found free given keeps answered =>
          obtain ⟨now, message, other, -⟩ := connects
          cases other
      | released found => exact (assigned rfl).elim
      | signalled signals => exact named
    · have named := before old present unassigned
      cases change with
      | @connected remotePcDto group sent kept inGroup found free given keeps answered =>
          rw [RemotePcApiService.connected_reconnectId]
          split
          · exact named
          · rcases free with free | holds
            · exact (unassigned free).elim
            -- The column keeps the stored reconnectId as it is.
            · cases keeps.symm.trans (Database.varchar_of_holds present holds)
              exact holds ▸ named
      | released found => exact (assigned rfl).elim
      | signalled signals => exact named
  · exact (assigned rfl).elim

/-- Assigned PCs stay named through a run whose assignments are of named PCs. -/
theorem assignedNamed_run (assigns : Along (step environment) (fun world operation =>
      operation.AssignsNamed world) (initial environment) operations) :
    AssignedNamed (run (step environment) (initial environment) operations).db := by
  refine assigns.run_invariant (fun world => AssignedNamed world.db)
    (fun _ _ keeps before => assignedNamed_step keeps before) ?_
  apply assignedNamed_step
  · intro remotePc member
    cases member
  · intro remotePc member
    cases member

/-- A named PC is found and released by its name, and nothing else changes, as
long as the clients choose fresh names; the assigned PCs are named when each was
named before its server connected. -/
theorem named_releasable
    (reached : run (step environment) (initial environment) operations = world)
    (fresh : Along (step environment) (fun world operation =>
      operation.StoresFreshId environment world) (initial environment) operations) :
    (∀ remotePc ∈ world.db.remotePc.rows, ∀ reconnectId,
      remotePc.reconnectId = some reconnectId → reconnectId ≠ "" →
        world.db.findByReconnectId reconnectId = .ok (some remotePc) ∧
          ∃ after : Table RemotePc,
            perform environment world (.disAssignRemotePc reconnectId) =
              (.ok .done, world.withDb { world.db with remotePc := after }) ∧
            after.rows = Table.replace world.db.remotePc.rows remotePc.disAssign) ∧
      (Along (step environment) (fun world operation => operation.AssignsNamed world)
          (initial environment) operations →
        ∀ remotePc ∈ world.db.remotePc.rows, remotePc.assignedAt ≠ none →
          ∃ reconnectId, remotePc.reconnectId = some reconnectId ∧ reconnectId ≠ "") := by
  have reachable : Reachable environment world := ⟨operations, reached⟩
  subst reached
  have apart := namesApart_run fresh
  constructor
  · intro remotePc member reconnectId holds named
    have alone : ∀ other ∈ (run (step environment) (initial environment)
        operations).db.remotePc.rows, other.reconnectId = some reconnectId → other = remotePc := by
      intro other present shares
      refine apart other present remotePc member (shares.trans holds.symm) fun empty => ?_
      exact named (Option.some.inj (shares.symm.trans empty))
    have found := Database.findByReconnectId_of_alone member holds alone
    exact ⟨found, perform_disAssign found⟩
  · intro assigns remotePc member assigned
    obtain ⟨reconnectId, holds⟩ :=
      Option.ne_none_iff_exists'.mp (reachable.reconnectId_ne_none member)
    refine ⟨reconnectId, holds, fun empty => ?_⟩
    exact assignedNamed_run assigns remotePc member assigned (empty ▸ holds)

/-- A client names the base PC, then its server connects. -/
def nameAndConnect : List Operation :=
  [.connectSettingRepeater (baseConnect "app-1"), baseServerConnect]

/-- The state after the base PC has been granted and its server has connected. -/
def namedBase : World :=
  run (step .dev) (initial .dev) nameAndConnect

/-- The base PC in this state. -/
def namedBasePc : RemotePc :=
  { connectedBasePc with reconnectId := some "app-1" }

theorem namedBase_releasable :
    (∀ remotePc ∈ namedBase.db.remotePc.rows, ∀ reconnectId,
      remotePc.reconnectId = some reconnectId → reconnectId ≠ "" →
        namedBase.db.findByReconnectId reconnectId = .ok (some remotePc) ∧
          ∃ after : Table RemotePc,
            perform .dev namedBase (.disAssignRemotePc reconnectId) =
              (.ok .done, namedBase.withDb { namedBase.db with remotePc := after }) ∧
            after.rows = Table.replace namedBase.db.remotePc.rows remotePc.disAssign) ∧
      (Along (step .dev) (fun world operation => operation.AssignsNamed world) (initial .dev)
          nameAndConnect →
        ∀ remotePc ∈ namedBase.db.remotePc.rows, remotePc.assignedAt ≠ none →
          ∃ reconnectId, remotePc.reconnectId = some reconnectId ∧ reconnectId ≠ "") := by
  have fresh : Along (step .dev) (fun world operation => operation.StoresFreshId .dev world)
      (initial .dev) nameAndConnect := by
    refine ⟨?_, ?_, trivial⟩
    · intro remotePcDto repeaterId sent reconnectId call _ given keeps _ _ holder member holds
      cases call
      cases given
      obtain rfl := varchar_of_short keeps (by decide)
      have unnamed : ∀ row ∈ (initial .dev).db.remotePc.rows, row.reconnectId = some "" := by
        decide +kernel
      have empty : "" = "app-1" := Option.some.inj ((unnamed holder member).symm.trans holds)
      exact absurd empty (by decide)
    · intro remotePcDto repeaterId sent reconnectId call
      cases call
  exact named_releasable rfl fresh

/-- The server of the base PC connects before any client: the PC is assigned
and nobody can name it. -/
theorem assigned_without_name :
    ¬ ∀ (environment : Environment) (operations : List Operation) (remotePc : RemotePc),
      operations.all Operation.isPcLifecycle →
      remotePc ∈ (run (step environment) (initial environment) operations).db.remotePc.rows →
      remotePc.assignedAt ≠ none →
      ∃ reconnectId, remotePc.reconnectId = some reconnectId ∧ reconnectId ≠ "" ∧
        ∀ other ∈ (run (step environment) (initial environment) operations).db.remotePc.rows,
          other.reconnectId = some reconnectId → other = remotePc := by
  intro named
  obtain ⟨reconnectId, holds, filled, -⟩ :=
    named .dev [baseServerConnect] connectedBasePc rfl connectedBasePc_mem (by decide)
  cases holds
  exact filled rfl

end MegaVnc
