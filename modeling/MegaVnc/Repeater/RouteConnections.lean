import MegaVnc.Repeater.RelayExit

/-! # The main loop

One turn of `routeConnections` accepts at most one viewer and one server, removes
waiting connections at every fifth turn, sends a heartbeat at every ninetieth, and
cleans up after the relays that have ended. Apart from the heartbeats, a run of the
loop is a run of the tables on the inputs of its calls.
-/

namespace Repeater

open Slots Transition

/-- How long `select` waits. -/
def selectWaitSeconds : Nat := 1

/-- Every so many seconds the loop removes what waits too long. -/
def cleanupSeconds : Nat := 5

/-- Every so many seconds the loop sends a heartbeat. -/
def heartbeatSeconds : Nat := 90

/-- An accepted connection: the id it sends, its address, and what `fork` would
return. -/
structure Arrival where
  id : List Char
  peerIp : AddrParts
  pid : Int32

/-- The calls of a turn that read the clock. -/
inductive Call where
  | acceptConnection (connectionFrom : ConnectionFrom)
  | connectionRemover (connectionFrom : ConnectionFrom) (index : Nat)
  | heartbeat
  | cleanUpAfterRepeaterProcExit (index : Nat)

/-- What the operating system decides in a turn: whether `select` succeeds, what
arrives, which peers are gone, which children have exited with which status, and
the clock. -/
structure LoopTurn where
  selectOk : Bool
  arrival : ConnectionFrom → Option Arrival
  isPeerDisconnected : ConnectionFrom → Nat → Bool
  waitpid : Nat → Option Int32
  time : Call → Int64

/-- The state of the loop: the tables, and the seconds since the last removal and the last
heartbeat. -/
structure Loop where
  state : State
  seconds : Nat
  heartBeatSeconds : Nat

/-- The loop begins with empty tables. -/
def Loop.start (config : Config) : Loop where
  state := Repeater.start config
  seconds := 0
  heartBeatSeconds := 0

variable (config : Config) (turn : LoopTurn)

/-- A connection of one end is accepted, if there is one. -/
def acceptArrival (connectionFrom : ConnectionFrom) (state : State) : State :=
  match turn.arrival connectionFrom with
  | none => state
  | some arrival =>
      step config state (turn.time (.acceptConnection connectionFrom),
        .acceptConnection connectionFrom arrival.id arrival.peerIp arrival.pid)

/-- The remover looks at one entry. -/
def callConnectionRemover (connectionFrom : ConnectionFrom) (index : Nat) (state : State) : State :=
  step config state (turn.time (.connectionRemover connectionFrom index),
    .connectionRemover connectionFrom index (turn.isPeerDisconnected connectionFrom index))

/-- The remover looks at each entry of both tables. -/
def removeOldOrBrokenConnections (state : State) : State :=
  (List.range config.maxSessions).foldl (fun state index =>
    callConnectionRemover config turn .server index
      (callConnectionRemover config turn .viewer index state)) state

/-- The heartbeat the loop sends. -/
def heartbeat (now : Int64) : RepeaterEvent where
  timeStamp := now
  repeaterProcessId := config.getpid
  extraInfo := .startEnd .repeaterHeartbeat ⟨Int32.ofNat config.maxSessions⟩

/-- The heartbeat is sent. -/
def sendHeartbeat (state : State) : State :=
  { state with sent := state.sent ++ [heartbeat config (turn.time .heartbeat)] }

/-- A process that has exited is cleaned up after. -/
def callCleanUp (index : Nat) (state : State) : State :=
  let proc := state.lists.repeaterProcs.getD index .zero
  if proc.code ≠ 0 then
    match turn.waitpid index with
    | none => state
    | some exitCode =>
        step config state (turn.time (.cleanUpAfterRepeaterProcExit index),
          .cleanUpAfterRepeaterProcExit exitCode proc.pid)
  else state

/-- Each entry of the process table is looked at. -/
def cleanUpAfterRepeaterProcs (state : State) : State :=
  (List.range config.maxSessions).foldl (fun state index => callCleanUp config turn index state)
    state

/-- One turn of the `while` loop. -/
def routeConnections (loop : Loop) (turn : LoopTurn) : Loop :=
  if turn.selectOk then
    let state := acceptArrival config turn .server (acceptArrival config turn .viewer loop.state)
    let seconds := loop.seconds + selectWaitSeconds
    let sweeps := cleanupSeconds ≤ seconds
    let state := if sweeps then removeOldOrBrokenConnections config turn state else state
    let heartBeatSeconds := loop.heartBeatSeconds + selectWaitSeconds
    let beats := heartbeatSeconds ≤ heartBeatSeconds
    let state := if beats then sendHeartbeat config turn state else state
    { state := cleanUpAfterRepeaterProcs config turn state
      seconds := if sweeps then 0 else seconds
      heartBeatSeconds := if beats then 0 else heartBeatSeconds }
  else loop

/-! ### The inputs of a turn -/

/-- An input with a result of `fork` and of `waitpid`; the exit status is one of some
statuses. -/
def Input.Within (statuses : Int32 → Prop) : Input → Prop
  | .acceptConnection _ _ _ pid => pid = -1 ∨ 0 < pid
  | .connectionRemover _ _ _ => True
  | .cleanUpAfterRepeaterProcExit exitCode pid => statuses exitCode ∧ 0 < pid

/-- What the operating system promises of a turn: the pids of children are positive, and
their statuses among the given ones. -/
structure LoopTurn.Within (statuses : Int32 → Prop) : Prop where
  forked : ∀ connectionFrom arrival, turn.arrival connectionFrom = some arrival →
    arrival.pid = -1 ∨ 0 < arrival.pid
  exited : ∀ index exitCode, turn.waitpid index = some exitCode → statuses exitCode

/-- The events of the tables; the others tell of the repeater itself. -/
def isTableEvent (event : RepeaterEvent) : Bool :=
  event.eventNum ≤ 5

/-- The inputs lead the tables to the state, and send its events but the heartbeats. -/
structure Follows (statuses : Int32 → Prop) (state : State) (inputs : List (Int64 × Input)) :
    Prop where
  within : ∀ input ∈ inputs, input.2.Within statuses
  lists : state.lists = (run (step config) (start config) inputs).lists
  sent : state.sent.filter isTableEvent = (run (step config) (start config) inputs).sent

section Inputs

variable {config : Config} {turn : LoopTurn} {statuses : Int32 → Prop} {input : Input}
  {lists : Lists} {state : State} {now : Int64}

/-- Such an input comes from a child. -/
theorem Input.Within.child (within : input.Within statuses) : input.Child := by
  cases input with
  | acceptConnection connectionFrom id peerIp pid => trivial
  | connectionRemover connectionFrom index peerDisconnected => trivial
  | cleanUpAfterRepeaterProcExit exitCode pid => exact within.2

/-- Such an input is legal when the statuses close the session. -/
theorem Input.Within.legal (within : input.Within (· ∈ closingExitCodes)) : input.Legal := by
  cases input with
  | acceptConnection connectionFrom id peerIp pid => exact within
  | connectionRemover connectionFrom index peerDisconnected => trivial
  | cleanUpAfterRepeaterProcExit exitCode pid => exact within

/-- Every call of the tables' functions sends events of the tables only. -/
theorem isTableEvent_handle (config : Config) (lists : Lists) (now : Int64) (input : Input) :
    ∀ event ∈ (handle config lists now input).2, isTableEvent event = true := by
  have ofNumber {event : RepeaterEvent} {number : Int} (same : event.eventNum = number)
      (small : number ≤ 5) : isTableEvent event = true := decide_eq_true (same ▸ small)
  cases input with
  | acceptConnection connectionFrom id peerIp pid =>
      have accepts := acceptConnection_accepts config lists now connectionFrom id peerIp
      change ∀ event ∈ (acceptConnection config lists now connectionFrom id peerIp pid).2, _
      generalize acceptConnection config lists now connectionFrom id peerIp = outcome at accepts ⊢
      cases accepts with
      | refused => exact fun _ none => by cases none
      | waits middle event size procs own number =>
          refine List.forall_mem_singleton.mpr ?_
          rcases number with number | number <;> exact ofNumber number (by decide)
      | joins active event started size procs own ownStart number numberStart =>
          refine List.forall_mem_cons.mpr ⟨?_, List.forall_mem_singleton.mpr
            (ofNumber (numberStart pid) (by decide))⟩
          rcases number with number | number <;> exact ofNumber number (by decide)
  | connectionRemover connectionFrom index peerDisconnected =>
      change ∀ event ∈
        (connectionRemover config lists now connectionFrom index peerDisconnected).2, _
      rcases connectionRemover_cases config lists now connectionFrom index peerDisconnected
        with same | ⟨after, event, same, size, procs, number⟩
      · rw [same]
        exact fun _ none => by cases none
      · rw [same]
        refine List.forall_mem_singleton.mpr ?_
        rcases number with number | number <;> exact ofNumber number (by decide)
  | cleanUpAfterRepeaterProcExit exitCode pid =>
      change ∀ event ∈ (cleanUpAfterRepeaterProcExit config lists now exitCode pid).2, _
      rcases cleanUp_cases config lists now exitCode pid
        with same | ⟨proc, member, named, event, own, number, same⟩
      · rw [same]
        exact fun _ none => by cases none
      · rw [same]
        exact List.forall_mem_singleton.mpr (ofNumber number (by decide))

/-- A recorded process has a positive pid. -/
def Lists.PidsPositive (lists : Lists) : Prop :=
  ∀ proc ∈ lists.repeaterProcs, proc.code ≠ 0 → 0 < proc.pid

/-- A fork records a positive pid. -/
theorem pidsPositive_forkRepeater {code : Int64} {pid : Int32} (forked : pid = -1 ∨ 0 < pid)
    (positive : lists.PidsPositive) : (forkRepeater lists code pid).PidsPositive := by
  unfold forkRepeater
  split
  · exact positive
  · next child =>
      intro proc member busy
      rcases mem_updateFirst member with kept | ⟨_, _, _, rfl⟩
      · exact positive proc kept busy
      · exact forked.resolve_left child

/-- Each call keeps the recorded pids positive. -/
theorem pidsPositive_handle (within : input.Within statuses) (positive : lists.PidsPositive) :
    (handle config lists now input).1.PidsPositive := by
  cases input with
  | acceptConnection connectionFrom id peerIp pid =>
      have accepts := acceptConnection_accepts config lists now connectionFrom id peerIp
      change (acceptConnection config lists now connectionFrom id peerIp pid).1.PidsPositive
      generalize acceptConnection config lists now connectionFrom id peerIp = outcome at accepts ⊢
      cases accepts with
      | refused => exact positive
      | waits middle event size procs own number =>
          intro proc member
          exact positive proc (procs ▸ member)
      | joins active event started size procs own ownStart number numberStart =>
          apply pidsPositive_forkRepeater within
          intro proc member
          exact positive proc (procs ▸ member)
  | connectionRemover connectionFrom index peerDisconnected =>
      change (connectionRemover config lists now connectionFrom index
        peerDisconnected).1.PidsPositive
      rcases connectionRemover_cases config lists now connectionFrom index peerDisconnected
        with same | ⟨after, event, same, size, procs, number⟩
      · rw [same]
        exact positive
      · rw [same]
        intro proc member
        exact positive proc (procs ▸ member)
  | cleanUpAfterRepeaterProcExit exitCode pid =>
      change (cleanUpAfterRepeaterProcExit config lists now exitCode pid).1.PidsPositive
      have removed : (removeRepeaterProcList lists pid).PidsPositive := by
        intro proc member busy
        rcases mem_updateFirst member with kept | ⟨_, _, _, rfl⟩
        · exact positive proc kept busy
        · exact (busy rfl).elim
      rcases cleanUp_cases config lists now exitCode pid
        with same | ⟨proc, member, named, event, own, number, same⟩
      · rw [same]
        exact positive
      · rw [same]
        dsimp only
        split
        · exact removed
        · exact removed

/-- The recorded pids are positive after every run. -/
theorem pidsPositive_run {inputs : List (Int64 × Input)}
    (within : ∀ input ∈ inputs, input.2.Within statuses) :
    (run (step config) (start config) inputs).lists.PidsPositive := by
  have along : Along (step config) (fun _ input => input.2.Within statuses) (start config)
      inputs := .of_forall fun _ input member => within input member
  refine along.run_invariant (fun state => state.lists.PidsPositive)
    (fun _ _ within positive => pidsPositive_handle within positive) ?_
  intro proc member busy
  rw [List.eq_of_mem_replicate member] at busy
  exact (busy rfl).elim

/-! ### The inputs of a run -/

/-- A call of the tables follows one more input. -/
theorem Follows.step {inputs : List (Int64 × Input)} {input : Int64 × Input}
    (follows : Follows config statuses state inputs) (within : input.2.Within statuses) :
    Follows config statuses (step config state input) (inputs ++ [input]) where
  within := List.forall_mem_append.mpr ⟨follows.within, List.forall_mem_singleton.mpr within⟩
  lists := by
    rw [run_append, run_cons, run_nil, step_lists, step_lists, follows.lists]
  sent := by
    rw [run_append, run_cons, run_nil, step_sent, step_sent, List.filter_append, follows.sent,
      follows.lists, List.filter_eq_self.mpr (isTableEvent_handle _ _ _ _)]

/-- A heartbeat follows no input. -/
theorem Follows.sendHeartbeat {inputs : List (Int64 × Input)}
    (follows : Follows config statuses state inputs) :
    Follows config statuses (sendHeartbeat config turn state) inputs where
  within := follows.within
  lists := follows.lists
  sent := by
    have other : isTableEvent (heartbeat config (turn.time .heartbeat)) = false := rfl
    change (state.sent ++ [_]).filter isTableEvent = _
    rw [List.filter_append, follows.sent, List.filter_cons_of_neg (by rw [other]; decide),
      List.filter_nil, List.append_nil]

theorem Follows.sound {inputs : List (Int64 × Input)}
    (follows : Follows config statuses state inputs) : state.lists.Sound := by
  rw [follows.lists]
  exact (whole_run fun input member => (follows.within input member).child).sound

theorem Follows.pidsPositive {inputs : List (Int64 × Input)}
    (follows : Follows config statuses state inputs) : state.lists.PidsPositive := by
  rw [follows.lists]
  exact pidsPositive_run follows.within

/-- Some inputs lead the tables to the state. -/
def State.Reached (config : Config) (statuses : Int32 → Prop) (state : State) : Prop :=
  ∃ inputs, Follows config statuses state inputs

/-- A call leads to a state that inputs reach. -/
theorem State.Reached.step {input : Int64 × Input} (reached : state.Reached config statuses)
    (within : input.2.Within statuses) :
    (Repeater.step config state input).Reached config statuses := by
  obtain ⟨inputs, follows⟩ := reached
  exact ⟨inputs ++ [input], follows.step within⟩

variable (legal : turn.Within statuses)

include legal in

/-- Accepting a connection is a call of the tables, or none. -/
theorem reached_acceptArrival (connectionFrom : ConnectionFrom)
    (reached : state.Reached config statuses) :
    (acceptArrival config turn connectionFrom state).Reached config statuses := by
  unfold acceptArrival
  split
  · exact reached
  · next arrival arrived => exact reached.step (legal.forked connectionFrom arrival arrived)

theorem reached_callConnectionRemover (connectionFrom : ConnectionFrom) (index : Nat)
    (reached : state.Reached config statuses) :
    (callConnectionRemover config turn connectionFrom index state).Reached config statuses :=
  reached.step trivial

include legal in

/-- The cleaning up after one process leads from reached tables to reached tables. -/
theorem reached_callCleanUp (index : Nat) (reached : state.Reached config statuses) :
    (callCleanUp config turn index state).Reached config statuses := by
  obtain ⟨inputs, follows⟩ := reached
  unfold callCleanUp
  dsimp only
  split
  · next busy =>
      split
      · exact ⟨inputs, follows⟩
      · next exitCode exited =>
          have member : state.lists.repeaterProcs.getD index .zero ∈ state.lists.repeaterProcs := by
            rw [List.getD_eq_getElem?_getD] at busy ⊢
            cases found : state.lists.repeaterProcs[index]? with
            | none =>
                rw [found] at busy
                exact (busy rfl).elim
            | some proc => exact List.mem_of_getElem? found
          refine ⟨_, follows.step ?_⟩
          exact ⟨legal.exited index exitCode exited, follows.pidsPositive _ member busy⟩
  · exact ⟨inputs, follows⟩

/-- What each look of the remover keeps, all of them keep. -/
theorem removeOldOrBrokenConnections_invariant (holds : State → Prop)
    (removes : ∀ connectionFrom index state, holds state →
      holds (callConnectionRemover config turn connectionFrom index state))
    (held : holds state) : holds (removeOldOrBrokenConnections config turn state) := by
  have along : Along (fun state index => callConnectionRemover config turn .server index
      (callConnectionRemover config turn .viewer index state)) (fun _ _ => True) state
      (List.range config.maxSessions) := .of_forall fun _ _ _ => trivial
  exact along.run_invariant holds
    (fun state index _ held => removes .server index _ (removes .viewer index _ held)) held

/-- What the cleaning up after one process keeps, that after all keeps. -/
theorem cleanUpAfterRepeaterProcs_invariant (holds : State → Prop)
    (cleans : ∀ index state, holds state → holds (callCleanUp config turn index state))
    (held : holds state) : holds (cleanUpAfterRepeaterProcs config turn state) := by
  have along : Along (fun state index => callCleanUp config turn index state) (fun _ _ => True)
      state (List.range config.maxSessions) := .of_forall fun _ _ _ => trivial
  exact along.run_invariant holds (fun state index _ held => cleans index state held) held

/-- A property that the calls of a turn keep, one by one, is kept by the turn. -/
theorem routeConnections_invariant (holds : State → Prop) {loop : Loop}
    (accepts : ∀ connectionFrom state, holds state →
      holds (acceptArrival config turn connectionFrom state))
    (removes : ∀ connectionFrom index state, holds state →
      holds (callConnectionRemover config turn connectionFrom index state))
    (beats : ∀ state, holds state → holds (Repeater.sendHeartbeat config turn state))
    (cleans : ∀ index state, holds state → holds (callCleanUp config turn index state))
    (held : holds loop.state) : holds (routeConnections config loop turn).state := by
  unfold routeConnections
  split
  · apply cleanUpAfterRepeaterProcs_invariant holds cleans
    have accepted := accepts .server _ (accepts .viewer _ held)
    split
    · apply beats
      split
      · exact removeOldOrBrokenConnections_invariant holds removes accepted
      · exact accepted
    · split
      · exact removeOldOrBrokenConnections_invariant holds removes accepted
      · exact accepted
  · exact held

include legal in

/-- A turn is a run of the tables. -/
theorem reached_routeConnections {loop : Loop} (reached : loop.state.Reached config statuses) :
    (routeConnections config loop turn).state.Reached config statuses := by
  refine routeConnections_invariant (State.Reached config statuses)
    (fun connectionFrom _ => reached_acceptArrival legal connectionFrom)
    (fun connectionFrom index _ => reached_callConnectionRemover connectionFrom index)
    (fun state reached => ?_)
    (fun index _ => reached_callCleanUp legal index) reached
  obtain ⟨inputs, follows⟩ := reached
  exact ⟨inputs, follows.sendHeartbeat⟩

/-! ### Counting turns -/

/-- How many events of the repeater itself were sent. -/
def State.ownEvents (state : State) : Nat :=
  state.sent.countP fun event => !isTableEvent event

/-- A call of the tables sends no heartbeat. -/
theorem ownEvents_step (input : Int64 × Input) :
    (Repeater.step config state input).ownEvents = state.ownEvents := by
  have none : (handle config state.lists input.1 input.2).2.countP
      (fun event => !isTableEvent event) = 0 := by
    refine List.countP_eq_zero.mpr fun event member => ?_
    rw [isTableEvent_handle _ _ _ _ event member]
    decide
  rw [State.ownEvents, step_sent, List.countP_append, none]
  rfl

/-- A heartbeat is counted. -/
theorem ownEvents_sendHeartbeat :
    (sendHeartbeat config turn state).ownEvents = state.ownEvents + 1 := by
  have own : (!isTableEvent (heartbeat config (turn.time .heartbeat))) = true := rfl
  change List.countP _ (state.sent ++ [_]) = _
  rw [List.countP_append, List.countP_singleton, if_pos own]
  rfl

/-- Accepting a connection sends no heartbeat. -/
theorem ownEvents_acceptArrival (connectionFrom : ConnectionFrom) :
    (acceptArrival config turn connectionFrom state).ownEvents = state.ownEvents := by
  unfold acceptArrival
  split
  · rfl
  · exact ownEvents_step _

/-- Cleaning up sends none either. -/
theorem ownEvents_callCleanUp (index : Nat) :
    (callCleanUp config turn index state).ownEvents = state.ownEvents := by
  unfold callCleanUp
  dsimp only
  split
  · split
    · rfl
    · exact ownEvents_step _
  · rfl

/-- The counters after some turns whose `select` succeeded, and the heartbeats sent
in them. -/
structure Loop.Counts (loop : Loop) (turns : Nat) : Prop where
  seconds : loop.seconds = turns % cleanupSeconds
  heartBeatSeconds : loop.heartBeatSeconds = turns % heartbeatSeconds
  heartbeats : loop.state.ownEvents = turns / heartbeatSeconds

/-- A turn whose `select` succeeds counts as one second. -/
theorem counts_routeConnections {loop : Loop} {turns : Nat} (counts : loop.Counts turns) :
    (routeConnections config loop turn).Counts (turns + if turn.selectOk then 1 else 0) := by
  unfold routeConnections
  by_cases selected : turn.selectOk = true
  · rw [if_pos selected, if_pos selected]
    obtain ⟨seconds, heartBeatSeconds, heartbeats⟩ := counts
    have same (count : Nat) (state : State) (before : state.ownEvents = count) :
        (cleanUpAfterRepeaterProcs config turn state).ownEvents = count :=
      cleanUpAfterRepeaterProcs_invariant (fun state => state.ownEvents = count)
        (fun index state held => (ownEvents_callCleanUp index).trans held) before
    have swept : (if cleanupSeconds ≤ loop.seconds + selectWaitSeconds then
        removeOldOrBrokenConnections config turn (acceptArrival config turn .server
          (acceptArrival config turn .viewer loop.state))
        else acceptArrival config turn .server
          (acceptArrival config turn .viewer loop.state)).ownEvents = loop.state.ownEvents := by
      have accepted : (acceptArrival config turn .server
          (acceptArrival config turn .viewer loop.state)).ownEvents = loop.state.ownEvents :=
        (ownEvents_acceptArrival .server).trans (ownEvents_acceptArrival .viewer)
      split
      · exact removeOldOrBrokenConnections_invariant
          (fun state => state.ownEvents = loop.state.ownEvents)
          (fun _ _ state held => (ownEvents_step _).trans held) accepted
      · exact accepted
    refine ⟨?_, ?_, same _ _ ?_⟩
    · simp only [seconds, cleanupSeconds, selectWaitSeconds]
      split <;> omega
    · simp only [heartBeatSeconds, heartbeatSeconds, selectWaitSeconds]
      split <;> omega
    · split
      · next beats =>
          rw [ownEvents_sendHeartbeat, swept, heartbeats]
          simp only [heartBeatSeconds, heartbeatSeconds, selectWaitSeconds] at beats ⊢
          omega
      · next silent =>
          rw [swept, heartbeats]
          simp only [heartBeatSeconds, heartbeatSeconds, selectWaitSeconds] at silent ⊢
          omega
  · rw [if_neg selected, if_neg selected]
    exact counts

/-! ### Removing connections that wait -/

/-- The entries of a table. -/
def Lists.infos (lists : Lists) : ConnectionFrom → List RepeaterInfo
  | .viewer => lists.viewers
  | .server => lists.servers

/-- Each entry is as before, or has become free. -/
def Frees (before after : Lists) : Prop :=
  ∀ connectionFrom index,
    (after.infos connectionFrom).getD index .zero = (before.infos connectionFrom).getD index .zero ∨
      ((after.infos connectionFrom).getD index .zero).code = 0

/-- An entry that waits is neither too old nor is its peer gone, as the remover finds
them in the turn. -/
def MayWait (turn : LoopTurn) (connectionFrom : ConnectionFrom) (index : Nat) (lists : Lists) :
    Prop :=
  ((lists.infos connectionFrom).getD index .zero).code ≠ 0 →
    ((lists.infos connectionFrom).getD index .zero).active = false →
      isConnectionTooOld (turn.time (.connectionRemover connectionFrom index))
        ((lists.infos connectionFrom).getD index .zero).timeStamp = false ∧
      turn.isPeerDisconnected connectionFrom index = false

theorem Frees.refl (lists : Lists) : Frees lists lists := fun _ _ => Or.inl rfl

/-- Where entries only become free, what may wait still may. -/
theorem MayWait.of_frees {before after : Lists} {connectionFrom : ConnectionFrom} {index : Nat}
    (frees : Frees before after) (waits : MayWait turn connectionFrom index before) :
    MayWait turn connectionFrom index after := by
  unfold MayWait
  rcases frees connectionFrom index with same | free
  · rw [same]
    exact waits
  · exact fun named => (named free).elim

/-- Removing a code leaves each entry or frees it. -/
theorem getD_removeInfo (code : Int64) (infos : List RepeaterInfo) (index : Nat) :
    (removeInfo code infos).getD index .zero = infos.getD index .zero ∨
      ((removeInfo code infos).getD index .zero).code = 0 := by
  rw [List.getD_eq_getElem?_getD, List.getD_eq_getElem?_getD]
  have cases : (removeInfo code infos)[index]? = infos[index]? ∨
      ∃ old : RepeaterInfo, (removeInfo code infos)[index]? =
        some { old with code := 0, active := false } := getElem?_updateFirst index
  rcases cases with same | ⟨old, freed⟩
  · exact Or.inl (by rw [same])
  · rw [freed]
    exact Or.inr rfl

/-- Removing a viewer only frees an entry. -/
theorem frees_removeViewerList (code : Int64) : Frees lists (removeViewerList lists code) := by
  intro connectionFrom index
  cases connectionFrom with
  | viewer => exact getD_removeInfo code lists.viewers index
  | server => exact Or.inl rfl

/-- Removing a server only frees an entry. -/
theorem frees_removeServerList (code : Int64) : Frees lists (removeServerList lists code) := by
  intro connectionFrom index
  cases connectionFrom with
  | viewer => exact Or.inl rfl
  | server => exact getD_removeInfo code lists.servers index

/-- The remover only frees entries. -/
theorem frees_connectionRemover (connectionFrom : ConnectionFrom) (index : Nat)
    (peerDisconnected : Bool) : Frees lists
      (connectionRemover config lists now connectionFrom index peerDisconnected).1 := by
  cases connectionFrom with
  | viewer =>
      unfold connectionRemover
      dsimp only
      split
      · exact frees_removeViewerList _
      · exact .refl lists
  | server =>
      unfold connectionRemover
      dsimp only
      split
      · exact frees_removeServerList _
      · exact .refl lists

/-- The cleaning up after a process only frees entries. -/
theorem frees_cleanUp (exitCode pid : Int32) : Frees lists
    (cleanUpAfterRepeaterProcExit config lists now exitCode pid).1 := by
  rcases cleanUp_cases config lists now exitCode pid
    with same | ⟨proc, member, named, event, own, number, same⟩
  · rw [same]
    exact .refl lists
  · rw [same]
    dsimp only
    split
    · intro connectionFrom index
      cases connectionFrom with
      | viewer => exact getD_removeInfo proc.code lists.viewers index
      | server => exact getD_removeInfo proc.code lists.servers index
    · exact fun _ _ => Or.inl rfl

/-- A code that was removed is no longer in its table, so its entry is free. -/
theorem code_removeInfo {infos : List RepeaterInfo} (apart : Apart RepeaterInfo.code 0 infos)
    {index : Nat} (named : (infos.getD index .zero).code ≠ 0) :
    ((removeInfo (infos.getD index .zero).code infos).getD index .zero).code = 0 := by
  refine (getD_removeInfo _ infos index).resolve_left fun same => ?_
  have gone : entry (infos.getD index .zero).code
      (removeInfo (infos.getD index .zero).code infos) = none := by
    rw [entry_removeInfo apart named named, if_pos rfl]
  have member : infos.getD index .zero ∈ removeInfo (infos.getD index .zero).code infos := by
    rw [← same] at named
    have inside := List.mem_of_getElem? (getElem?_of_code_ne named)
    rw [same] at inside
    exact inside
  exact entry_eq_none.mp gone _ member rfl

/-- The remover decides about the entry it is called for. -/
theorem mayWait_callConnectionRemover (sound : state.lists.Sound) (connectionFrom : ConnectionFrom)
    (index : Nat) : MayWait turn connectionFrom index
      (callConnectionRemover config turn connectionFrom index state).lists := by
  have decided {info : RepeaterInfo} {old gone : Bool}
      (stays : ¬ (isExistingConnectionInactive info.active (info.code ≠ 0) = true ∧
        (old = true ∨ gone = true))) (named : info.code ≠ 0) (waits : info.active = false) :
      old = false ∧ gone = false := by
    have inactive := isExistingConnectionInactive_eq_true.mpr ⟨named, waits⟩
    have neither := not_or.mp fun either => stays ⟨inactive, either⟩
    exact ⟨Bool.eq_false_of_not_eq_true neither.1, Bool.eq_false_of_not_eq_true neither.2⟩
  change MayWait turn connectionFrom index (connectionRemover config state.lists
    (turn.time (.connectionRemover connectionFrom index)) connectionFrom index
    (turn.isPeerDisconnected connectionFrom index)).1
  cases connectionFrom with
  | viewer =>
      unfold connectionRemover
      dsimp only
      split
      · next removed =>
          have named := (isExistingConnectionInactive_eq_true.mp removed.1).1
          exact fun still => (still (code_removeInfo sound.viewers_apart named)).elim
      · next stays => exact decided stays
  | server =>
      unfold connectionRemover
      dsimp only
      split
      · next removed =>
          have named := (isExistingConnectionInactive_eq_true.mp removed.1).1
          exact fun still => (still (code_removeInfo sound.servers_apart named)).elim
      · next stays => exact decided stays

theorem sound_callConnectionRemover (sound : state.lists.Sound) (connectionFrom : ConnectionFrom)
    (index : Nat) : (callConnectionRemover config turn connectionFrom index state).lists.Sound :=
  (connectionRemover_effect sound).sound sound

/-- The loop over the tables decides about each entry, and later calls only free
entries. -/
theorem mayWait_removeOldOrBrokenConnections (sound : state.lists.Sound) {index : Nat}
    (inside : index < config.maxSessions) (connectionFrom : ConnectionFrom) :
    MayWait turn connectionFrom index
      (removeOldOrBrokenConnections config turn state).lists := by
  let one (state : State) (index : Nat) : State :=
    callConnectionRemover config turn .server index
      (callConnectionRemover config turn .viewer index state)
  have all (count : Nat) : (run one state (List.range count)).lists.Sound ∧
      ∀ index < count, ∀ connectionFrom, MayWait turn connectionFrom index
        (run one state (List.range count)).lists := by
    induction count with
    | zero => exact ⟨sound, fun index none => (Nat.not_lt_zero index none).elim⟩
    | succ count ih =>
        rw [List.range_succ, run_append, run_cons, run_nil]
        obtain ⟨soundBefore, earlier⟩ := ih
        generalize run one state (List.range count) = before at soundBefore earlier
        have soundViewer : (callConnectionRemover config turn .viewer count before).lists.Sound :=
          sound_callConnectionRemover soundBefore .viewer count
        refine ⟨sound_callConnectionRemover soundViewer .server count, ?_⟩
        intro index within connectionFrom
        have later : Frees (callConnectionRemover config turn .viewer count before).lists
            (one before count).lists := frees_connectionRemover .server count _
        rcases Nat.lt_succ_iff_lt_or_eq.mp within with less | rfl
        · have first : Frees before.lists
              (callConnectionRemover config turn .viewer count before).lists :=
            frees_connectionRemover .viewer count _
          exact ((earlier index less connectionFrom).of_frees first).of_frees later
        · cases connectionFrom with
          | viewer => exact (mayWait_callConnectionRemover soundBefore .viewer index).of_frees later
          | server => exact mayWait_callConnectionRemover soundViewer .server index
  exact (all config.maxSessions).2 index inside connectionFrom

/-- Cleaning up lets nothing wait that the remover has not seen. -/
theorem mayWait_cleanUpAfterRepeaterProcs {connectionFrom : ConnectionFrom} {index : Nat}
    (waits : MayWait turn connectionFrom index state.lists) :
    MayWait turn connectionFrom index (cleanUpAfterRepeaterProcs config turn state).lists := by
  refine cleanUpAfterRepeaterProcs_invariant
    (fun state => MayWait turn connectionFrom index state.lists) (fun slot state held => ?_) waits
  unfold callCleanUp
  dsimp only
  split
  · split
    · exact held
    · exact held.of_frees (frees_cleanUp _ _)
  · exact held

/-- The tables have as many entries as there may be sessions. -/
theorem Follows.size {inputs : List (Int64 × Input)}
    (follows : Follows config statuses state inputs) (connectionFrom : ConnectionFrom) :
    (state.lists.infos connectionFrom).length = config.maxSessions := by
  have along : Along (Repeater.step config) (fun _ _ => True) (start config) inputs :=
    .of_forall fun _ _ _ => trivial
  have same := along.run_invariant (fun state => state.lists.servers.length = config.maxSessions ∧
      state.lists.viewers.length = config.maxSessions)
    (fun state input _ sizes => by
      have kept := sameSize_handle config state.lists input.1 input.2
      exact ⟨kept.servers.trans sizes.1, kept.viewers.trans sizes.2⟩)
    ⟨List.length_replicate, List.length_replicate⟩
  rw [follows.lists]
  cases connectionFrom with
  | viewer => exact same.2
  | server => exact same.1

include legal in
/-- After a turn that removes connections, each entry that waits may do so. -/
theorem mayWait_routeConnections {loop : Loop} (reached : loop.state.Reached config statuses)
    (selected : turn.selectOk = true) (sweeps : cleanupSeconds ≤ loop.seconds + selectWaitSeconds)
    (connectionFrom : ConnectionFrom) (index : Nat) :
    MayWait turn connectionFrom index (routeConnections config loop turn).state.lists := by
  have accepted : (acceptArrival config turn .server
      (acceptArrival config turn .viewer loop.state)).Reached config statuses :=
    reached_acceptArrival legal .server (reached_acceptArrival legal .viewer reached)
  obtain ⟨inputs, follows⟩ := reached_routeConnections legal reached
  by_cases inside : index < config.maxSessions
  · obtain ⟨before, acceptedFollows⟩ := accepted
    have swept : MayWait turn connectionFrom index (removeOldOrBrokenConnections config turn
        (acceptArrival config turn .server (acceptArrival config turn .viewer loop.state))).lists :=
      mayWait_removeOldOrBrokenConnections acceptedFollows.sound inside connectionFrom
    unfold routeConnections
    rw [if_pos selected]
    apply mayWait_cleanUpAfterRepeaterProcs
    rw [if_pos sweeps]
    split
    · exact swept
    · exact swept
  · have size := follows.size connectionFrom
    intro named
    have outside : ((routeConnections config loop turn).state.lists.infos connectionFrom).getD index
        .zero = .zero := by
      rw [List.getD_eq_getElem?_getD, List.getElem?_eq_none (by omega)]
      rfl
    rw [outside] at named
    exact (named rfl).elim

end Inputs

/-! ### Runs of the loop -/

section Runs

variable {config : Config} {statuses : Int32 → Prop} {turns : List LoopTurn}

/-- The loop counts the turns whose `select` succeeds. -/
theorem counts_run (turns : List LoopTurn) :
    (run (routeConnections config) (.start config) turns).Counts
      (turns.countP LoopTurn.selectOk) := by
  induction turns using List.reverseRecOn with
  | nil => exact ⟨rfl, rfl, rfl⟩
  | append_singleton turns last ih =>
      rw [run_append, run_cons, run_nil, List.countP_append, List.countP_singleton]
      exact counts_routeConnections ih

/-- A run of the loop is a run of the tables. -/
theorem reached_run (legal : ∀ turn ∈ turns, turn.Within statuses) :
    (run (routeConnections config) (.start config) turns).state.Reached config statuses := by
  have along : Along (routeConnections config) (fun _ turn => turn.Within statuses)
      (.start config) turns := .of_forall fun _ turn member => legal turn member
  exact along.run_invariant (fun loop => loop.state.Reached config statuses)
    (fun _ _ legal reached => reached_routeConnections legal reached)
    ⟨[], ⟨List.forall_mem_nil _, rfl, rfl⟩⟩

/-- A run of the main loop is a run of the tables: some inputs, with the exit
statuses of the loop's children, lead to the same tables and send the same events,
apart from one heartbeat for every ninety turns. -/
theorem loop_refines_tables (legal : ∀ turn ∈ turns, turn.Within statuses) :
    ∃ inputs, Follows config statuses
        (run (routeConnections config) (.start config) turns).state inputs ∧
      (run (routeConnections config) (.start config) turns).state.ownEvents =
        turns.countP LoopTurn.selectOk / heartbeatSeconds := by
  obtain ⟨inputs, follows⟩ := reached_run legal
  exact ⟨inputs, follows, (counts_run turns).heartbeats⟩

/-- A small setting with Mode 2. -/
def twoSessions : Config where
  maxSessions := 2
  requireListedId := false
  idList := []
  getpid := 4321

/-- A server arrives at 10.0.0.2, and nothing else happens. -/
def serverTurn : LoopTurn where
  selectOk := true
  arrival
    | .server => some { id := "ID:7".toList, peerIp := ⟨10, 0, 0, 2⟩, pid := 700 }
    | .viewer => none
  isPeerDisconnected _ _ := false
  waitpid _ := none
  time _ := 1700000000

/-- Eleven minutes later nothing arrives. -/
def laterTurn : LoopTurn where
  selectOk := true
  arrival _ := none
  isPeerDisconnected _ _ := false
  waitpid _ := none
  time _ := 1700000660

/-- No child is involved in the turn but the one it forks. -/
theorem within_serverTurn : serverTurn.Within (· ∈ closingExitCodes) where
  forked connectionFrom arrival arrived := by
    cases connectionFrom with
    | server =>
        cases arrived
        decide
    | viewer => cases arrived
  exited index exitCode exited := by cases exited

theorem within_laterTurn : laterTurn.Within (· ∈ closingExitCodes) where
  forked connectionFrom arrival arrived := by cases arrived
  exited index exitCode exited := by cases exited

theorem loop_refines_tables_serverTurn :
    (∃ inputs, Follows twoSessions (· ∈ closingExitCodes)
        (run (routeConnections twoSessions) (.start twoSessions) [serverTurn]).state inputs ∧
      (run (routeConnections twoSessions) (.start twoSessions) [serverTurn]).state.ownEvents =
        [serverTurn].countP LoopTurn.selectOk / heartbeatSeconds) ∧
      numbersOf 7 (run (routeConnections twoSessions) (.start twoSessions)
        [serverTurn]).state.sent = [2] :=
  ⟨loop_refines_tables (List.forall_mem_singleton.mpr within_serverTurn), by decide⟩

/-- At every fifth turn of the loop whose `select` succeeds, each entry that still
waits is at most 600 seconds old and its peer is there. -/
theorem waiting_checked {last : LoopTurn}
    (legal : ∀ turn ∈ turns ++ [last], turn.Within statuses) (selected : last.selectOk = true)
    (fifth : cleanupSeconds ∣ (turns ++ [last]).countP LoopTurn.selectOk)
    (connectionFrom : ConnectionFrom) (index : Nat) :
    MayWait last connectionFrom index
      (run (routeConnections config) (.start config) (turns ++ [last])).state.lists := by
  obtain ⟨earlier, within⟩ := List.forall_mem_append.mp legal
  rw [run_append, run_cons, run_nil]
  refine mayWait_routeConnections (within last (List.mem_singleton_self last))
    (reached_run earlier) selected ?_ connectionFrom index
  rw [List.countP_append, List.countP_singleton, if_pos selected] at fifth
  rw [(counts_run turns).seconds]
  simp only [cleanupSeconds, selectWaitSeconds] at fifth ⊢
  omega

theorem waiting_checked_laterTurn :
    MayWait laterTurn .server 0 (run (routeConnections twoSessions) (.start twoSessions)
      ([serverTurn, serverTurn, serverTurn, serverTurn] ++ [laterTurn])).state.lists := by
  have legal : ∀ turn ∈ [serverTurn, serverTurn, serverTurn, serverTurn] ++ [laterTurn],
      turn.Within (· ∈ closingExitCodes) := by
    simp only [List.cons_append, List.nil_append, List.forall_mem_cons]
    exact ⟨within_serverTurn, within_serverTurn, within_serverTurn, within_serverTurn,
      within_laterTurn, List.forall_mem_nil _⟩
  exact waiting_checked legal rfl (by decide) .server 0

end Runs

end Repeater
