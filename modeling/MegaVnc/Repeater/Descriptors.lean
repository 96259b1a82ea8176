import Mathlib.Logic.Function.Basic
import MegaVnc.Repeater.EventInterface
import MegaVnc.Repeater.Mode1
import MegaVnc.Repeater.RouteConnections

/-! # The repeater with its sockets

The tables together with the sockets of their entries, the handshakes read from
waiting servers, and the connections behind the open descriptors. Mode 1 is
included. A relay gets two descriptors; the repeater closes its own copies.
-/

namespace Repeater

open Slots Transition

/-! ### Reading -/

/-- What a call of `recv` returns; no bytes stand for a closed connection. -/
inductive RecvResult where
  | received (bytes : List UInt8)
  | again
  | failed
deriving DecidableEq

/-- How `nonBlockingRead` ends. -/
inductive ReadEnd where
  | finished
  | closed

/-- What `nonBlockingRead` stores while its calls of `recv` return the given results,
and how it ends when they are enough to end it. An error other than `EAGAIN` is
tried again. -/
def nonBlockingRead (timeOut : Nat) : Nat → Nat → List RecvResult → List UInt8 × Option ReadEnd
  | timeOutCtr, len, results =>
      if len = 0 ∨ timeOut ≤ timeOutCtr then ([], some .finished)
      else
        match results with
        | [] => ([], none)
        | .received [] :: _ => ([], some .closed)
        | .received (byte :: bytes) :: rest =>
            let chunk := (byte :: bytes).take len
            let later := nonBlockingRead timeOut timeOutCtr (len - chunk.length) rest
            (chunk ++ later.1, later.2)
        | .again :: rest => nonBlockingRead timeOut (timeOutCtr + 1) len rest
        | .failed :: rest => nonBlockingRead timeOut timeOutCtr len rest

/-! ### The state -/

/-- Where a connection comes from: it was accepted and sent an id, or the repeater
opened it to a server for the request of a viewer. -/
inductive Origin where
  | accepted (connectionFrom : ConnectionFrom) (id : Option (List Char))
  | opened (request : List Char) (server : AddrParts)
deriving DecidableEq

/-- A connection: its number, its origin, and what was read from it after its id, for
the handshake of a server and by the checks that throw it away. -/
structure Connection where
  number : Nat
  origin : Origin
  handShake : List UInt8
  dropped : List UInt8
deriving DecidableEq

/-- What a new relay is given: the connections behind its two descriptors, and what
was written to its viewer before. -/
structure RelayStart where
  code : Int64
  server : Option Connection
  viewer : Option Connection
  kickstart : List UInt8
deriving DecidableEq

/-- The state of the repeater. `serverSockets` and `viewerSockets` are the `socket`
fields of the entries; `connections`, `arrivals` and `relays` are what the operating
system has: the connections behind the open descriptors, how many there have been,
and the relays started. -/
structure Process where
  lists : Lists
  serverSockets : List Nat
  viewerSockets : List Nat
  handShakes : List (List UInt8)
  mode1ConnCode : Int64
  sent : List RepeaterEvent
  connections : Nat → Option Connection
  arrivals : Nat
  relays : List RelayStart

/-- The ini file's settings for both modes. -/
structure Settings where
  config : Config
  allowedModes : Int32
  mode1 : Mode1

/-- The tables are empty and no descriptor is open. -/
def Process.start (config : Config) : Process where
  lists := cleanLists config.maxSessions
  serverSockets := List.replicate config.maxSessions 0
  viewerSockets := List.replicate config.maxSessions 0
  handShakes := List.replicate config.maxSessions []
  mode1ConnCode := 0
  sent := []
  connections _ := none
  arrivals := 0
  relays := []

namespace Process

variable (process : Process)

/-- A new connection is behind the descriptor. -/
def openSocket (socket : Nat) (origin : Origin) : Process :=
  { process with
    connections := Function.update process.connections socket
      (some { number := process.arrivals, origin := origin, handShake := [], dropped := [] })
    arrivals := process.arrivals + 1 }

/-- Nothing is behind the descriptor any more. -/
def closeSocket (socket : Nat) : Process :=
  { process with connections := Function.update process.connections socket none }

/-- Bytes of a connection have been read. -/
def readFrom (socket : Nat) (change : Connection → Connection) : Process :=
  { process with
    connections := Function.update process.connections socket
      ((process.connections socket).map change) }

/-- Events are given to the interface. -/
def send (events : List RepeaterEvent) : Process :=
  { process with sent := process.sent ++ events }

@[simp] theorem connections_openSocket (socket : Nat) (origin : Origin) :
    (process.openSocket socket origin).connections = Function.update process.connections socket
      (some { number := process.arrivals, origin := origin, handShake := [], dropped := [] }) :=
  rfl

@[simp] theorem connections_closeSocket (socket : Nat) :
    (process.closeSocket socket).connections =
      Function.update process.connections socket none := rfl

@[simp] theorem connections_readFrom (socket : Nat) (change : Connection → Connection) :
    (process.readFrom socket change).connections =
      Function.update process.connections socket ((process.connections socket).map change) := rfl

/-- The sockets of a table. -/
def sockets : ConnectionFrom → List Nat
  | .viewer => process.viewerSockets
  | .server => process.serverSockets

end Process

/-! ### Handshakes and relays -/

/-- The size of the buffer of a handshake. -/
def maxHandShakeLen : Nat := 100

/-- How many bytes the check of a peer reads. -/
def sizeRfbProtocolVersionMsg : Nat := 12

/-- The handshake is what was read, or nothing when the server is gone. -/
def readPeerHandShake (process : Process) (socket index : Nat) (results : List RecvResult) :
    Process :=
  let read := nonBlockingRead timeout5Secs 0 (maxHandShakeLen - 1) results
  let keeps : Bool := match read.2 with
    | some .finished => true
    | _ => false
  let handShake := if keeps then read.1 else []
  let dropped := if keeps then [] else read.1
  let process := process.readFrom socket fun connection =>
    { connection with handShake := handShake, dropped := dropped }
  { process with handShakes := process.handShakes.set index handShake }

/-- The child has copies of both descriptors; the parent closes its own. -/
def startRelay (process : Process) (serverSocket viewerSocket : Nat) (code : Int64)
    (kickstart : List UInt8) (pid : Int32) : Process :=
  let process := { process with lists := forkRepeater process.lists code pid }
  if pid = -1 then process
  else
    let relay : RelayStart :=
      { code := code
        server := process.connections serverSocket
        viewer := process.connections viewerSocket
        kickstart := kickstart }
    ({ process with relays := process.relays ++ [relay] }.closeSocket serverSocket).closeSocket
      viewerSocket

/-! ### Connections -/

/-- What the operating system and the peer decide about an accepted connection: its
descriptor and address, whether the version could be written to a viewer, the id that
was read, what the host of a Mode 1 viewer resolves to and the descriptor of the
connection to it, what `fork` returns, and what `recv` returns for a handshake. -/
structure Accepted where
  socket : Nat
  peerIp : AddrParts
  versionWritten : Bool
  id : Option (List Char)
  resolved : Option AddrParts
  server : Option Nat
  pid : Int32
  handShake : List RecvResult

variable (settings : Settings) (process : Process) (now : Int64) (accepted : Accepted)

/-- A viewer gets an entry, and a relay when the server of its code waits. -/
def acceptMode2Viewer (code : Int64) : Process :=
  match addViewerList process.lists code accepted.peerIp now with
  | none => process.closeSocket accepted.socket
  | some (viewerInd, lists) =>
      let process := { process with
        lists := lists
        viewerSockets := process.viewerSockets.set viewerInd accepted.socket }
      let process := process.send [connectionEvent settings.config now .viewerConnect viewerInd code
        connMode2 accepted.peerIp]
      match findServerList process.lists code with
      | none => process
      | some serverInd =>
          let process := { process with
            lists := setServerActive (setViewerActive process.lists code) code }
          let server := process.serverSockets.getD serverInd 0
          let process := startRelay process server accepted.socket code
            (process.handShakes.getD serverInd []) accepted.pid
          process.send [sessionEvent settings.config now .viewerServerSessionStart process.lists
            serverInd viewerInd code connMode2]

/-- A server gets an entry, and a relay when the viewer of its code waits. A server that has
to wait is read for its handshake. -/
def acceptMode2Server (code : Int64) : Process :=
  match addServerList process.lists code accepted.peerIp now with
  | none => process.closeSocket accepted.socket
  | some (serverInd, lists) =>
      let process := { process with
        lists := lists
        serverSockets := process.serverSockets.set serverInd accepted.socket
        handShakes := process.handShakes.set serverInd [] }
      let process := process.send [connectionEvent settings.config now .serverConnect serverInd code
        connMode2 (peerIpAt process.lists.servers serverInd)]
      match findViewerList process.lists code with
      | none => readPeerHandShake process accepted.socket serverInd accepted.handShake
      | some viewerInd =>
          let process := { process with
            lists := setViewerActive (setServerActive process.lists code) code }
          let viewer := process.viewerSockets.getD viewerInd 0
          let process := startRelay process accepted.socket viewer code [] accepted.pid
          process.send [sessionEvent settings.config now .viewerServerSessionStart process.lists
            serverInd viewerInd code connMode2]

/-- The lowest code that Mode 1 invents. -/
def minInventedConnCode : Int64 := -1000000

/-- Codes are invented downwards from -1, and again from there after the lowest. -/
def nextMode1ConnCode (mode1ConnCode : Int64) : Int64 :=
  if mode1ConnCode - 1 < minInventedConnCode then -1 else mode1ConnCode - 1

/-- The descriptor of the connection and the address, when the server may be reached
and is. -/
def openConnectionToVncServer (mode1 : Mode1) (accepted : Accepted) : Option (Nat × AddrParts) :=
  match accepted.resolved with
  | none => none
  | some serverIp =>
      if mode1.requireListedServer ∧ ¬ isServerAddressAllowed mode1 (inetNtoa serverIp) then none
      else accepted.server.map fun server => (server, serverIp)

/-- Both ends are put into their tables as active; when one table is full, only the
socket of that end is closed. -/
def addMode1Session (server : Nat) (serverIp : AddrParts) (code : Int64) : Process :=
  let viewerAdded := addViewerList process.lists code accepted.peerIp now
  let process := match viewerAdded with
    | none => process
    | some (viewerInd, lists) => { process with
        lists := setViewerActive lists code
        viewerSockets := process.viewerSockets.set viewerInd accepted.socket }
  let serverAdded := addServerList process.lists code serverIp now
  let process := match serverAdded with
    | none => process
    | some (serverInd, lists) => { process with
        lists := setServerActive lists code
        serverSockets := process.serverSockets.set serverInd server }
  match serverAdded, viewerAdded with
  | some (serverInd, _), some (viewerInd, _) =>
      let process := startRelay process server accepted.socket code [] accepted.pid
      process.send [
        connectionEvent settings.config now .viewerConnect viewerInd code connMode1
          accepted.peerIp,
        connectionEvent settings.config now .serverConnect serverInd code connMode1 serverIp,
        { timeStamp := now
          repeaterProcessId := settings.config.getpid
          extraInfo := .session .viewerServerSessionStart
            { serverTableIndex := Int32.ofNat serverInd
              viewerTableIndex := Int32.ofNat viewerInd
              code := code
              connMode := connMode1
              serverIp := serverIp
              viewerIp := accepted.peerIp } }]
  | some _, none => process.closeSocket accepted.socket
  | none, some _ => process.closeSocket server
  | none, none => (process.closeSocket server).closeSocket accepted.socket

/-- The server that a viewer asks for is connected, if it may be and can be. -/
def acceptMode1Viewer (request : List Char) : Process :=
  match openConnectionToVncServer settings.mode1 accepted with
  | none => process.closeSocket accepted.socket
  | some (server, serverIp) =>
      let process := process.openSocket server (.opened request serverIp)
      let code := nextMode1ConnCode process.mode1ConnCode
      addMode1Session settings { process with mode1ConnCode := code } now accepted server serverIp
        code

/-- An id that is not an id code names a host and a port. -/
def acceptMode1 (connectionFrom : ConnectionFrom) (id : List Char) : Process :=
  match parseHostAndPort id with
  | none => process.closeSocket accepted.socket
  | some (_, port) =>
      if settings.mode1.allowedMode1ServerPort ≠ 0 ∧
          port ≠ settings.mode1.allowedMode1ServerPort then
        process.closeSocket accepted.socket
      else
        match connectionFrom with
        | .viewer => acceptMode1Viewer settings process now accepted id
        | .server => process.closeSocket accepted.socket

/-- An id code is refused when it is no positive number, when its end is already there, or
when a list is required that does not have it. -/
def acceptMode2 (connectionFrom : ConnectionFrom) (id : List Char) : Process :=
  let code := parseId id
  if code = -1 then process.closeSocket accepted.socket
  else if findDuplicateIdIndex process.lists connectionFrom code ≠ none then
    process.closeSocket accepted.socket
  else if settings.config.requireListedId ∧ ¬ isCodeInIdList settings.config code then
    process.closeSocket accepted.socket
  else
    match connectionFrom with
    | .viewer => acceptMode2Viewer settings process now accepted code
    | .server => acceptMode2Server settings process now accepted code

/-- `acceptConnection`, with the sockets. -/
def acceptSocket (connectionFrom : ConnectionFrom) : Process :=
  let process := process.openSocket accepted.socket (.accepted connectionFrom accepted.id)
  if connectionFrom = .viewer ∧ ¬ accepted.versionWritten then
    process.closeSocket accepted.socket
  else
    match accepted.id with
    | none => process.closeSocket accepted.socket
    | some id =>
        if checkIdCode id then
          if settings.allowedModes &&& connMode2 > 0 then
            acceptMode2 settings process now accepted connectionFrom id
          else process.closeSocket accepted.socket
        else if settings.allowedModes &&& connMode1 > 0 then
          acceptMode1 settings process now accepted connectionFrom id
        else process.closeSocket accepted.socket

/-! ### Checks and ends -/

/-- Whether the peer is gone; the bytes that the check reads are thrown away. -/
def isPeerDisconnected : RecvResult → Bool × List UInt8
  | .received [] => (true, [])
  | .received bytes => (false, bytes.take sizeRfbProtocolVersionMsg)
  | .again => (false, [])
  | .failed => (true, [])

/-- `connectionRemover`, with the sockets; only an entry that is not too old has its
peer checked. -/
def removeSocket (connectionFrom : ConnectionFrom) (index : Nat) (result : RecvResult) : Process :=
  let rI := (process.lists.infos connectionFrom).getD index .zero
  let socket := (process.sockets connectionFrom).getD index 0
  let peer := isPeerDisconnected result
  let outcome := connectionRemover settings.config process.lists now connectionFrom index peer.1
  if isExistingConnectionInactive rI.active (rI.code ≠ 0) then
    if isConnectionTooOld now rI.timeStamp ∨ peer.1 then
      { (process.send outcome.2).closeSocket socket with lists := outcome.1 }
    else process.readFrom socket fun connection =>
      { connection with dropped := connection.dropped ++ peer.2 }
  else process

/-- `cleanUpAfterRepeaterProcExit` closes no socket: the relay had its own. -/
def cleanUpSockets (exitCode pid : Int32) : Process :=
  let outcome := cleanUpAfterRepeaterProcExit settings.config process.lists now exitCode pid
  { process.send outcome.2 with lists := outcome.1 }

/-! ### Runs -/

/-- A call of the main loop. -/
inductive ProcessCall where
  | acceptConnection (connectionFrom : ConnectionFrom) (accepted : Accepted)
  | connectionRemover (connectionFrom : ConnectionFrom) (index : Nat) (result : RecvResult)
  | cleanUpAfterRepeaterProcExit (exitCode pid : Int32)

/-- What the operating system promises about a connection: its descriptors are unused. -/
structure Accepted.Legal (process : Process) (accepted : Accepted) : Prop where
  unused : process.connections accepted.socket = none
  server : ∀ server ∈ accepted.server, process.connections server = none ∧
    server ≠ accepted.socket

/-- A child has a positive pid. -/
def ProcessCall.Legal (process : Process) : ProcessCall → Prop
  | .acceptConnection _ accepted => accepted.Legal process
  | .connectionRemover _ _ _ => True
  | .cleanUpAfterRepeaterProcExit _ pid => 0 < pid

/-- A code that is invented for the call is in neither table. -/
def ProcessCall.Fresh (process : Process) : ProcessCall → Prop
  | .acceptConnection _ accepted => ∀ id ∈ accepted.id, checkIdCode id = false →
      ∀ connectionFrom, findInfo (nextMode1ConnCode process.mode1ConnCode)
        (process.lists.infos connectionFrom) = none
  | _ => True

/-- No `fork` fails; a failed one stops the repeater. -/
def ProcessCall.Forks : ProcessCall → Prop
  | .acceptConnection _ accepted => accepted.pid ≠ -1
  | _ => True

/-- A call of the main loop at a time. -/
def Process.step (process : Process) (call : Int64 × ProcessCall) : Process :=
  match call.2 with
  | .acceptConnection connectionFrom accepted =>
      acceptSocket settings process call.1 accepted connectionFrom
  | .connectionRemover connectionFrom index result =>
      removeSocket settings process call.1 connectionFrom index result
  | .cleanUpAfterRepeaterProcExit exitCode pid =>
      cleanUpSockets settings process call.1 exitCode pid

/-! ### The tables alone -/

/-- What the tables see of a call: a connection that sends no id is closed before they
are looked at. -/
def ProcessCall.input : ProcessCall → Option Input
  | .acceptConnection connectionFrom accepted =>
      if connectionFrom = .viewer ∧ ¬ accepted.versionWritten then none
      else accepted.id.map fun id =>
        .acceptConnection connectionFrom id accepted.peerIp accepted.pid
  | .connectionRemover connectionFrom index result =>
      some (.connectionRemover connectionFrom index (isPeerDisconnected result).1)
  | .cleanUpAfterRepeaterProcExit exitCode pid =>
      some (.cleanUpAfterRepeaterProcExit exitCode pid)

/-- The inputs of the tables in a run. -/
def inputsOf (calls : List (Int64 × ProcessCall)) : List (Int64 × Input) :=
  calls.filterMap fun call => call.2.input.map fun input => (call.1, input)

/-- What the tables see of the process. -/
def Process.tables (process : Process) : State where
  lists := process.lists
  sent := process.sent

section Tables

variable {settings : Settings} {process : Process} {now : Int64} {accepted : Accepted}
  {code : Int64} {id : List Char}

/-- A new relay is recorded in the process table. -/
theorem lists_startRelay (serverSocket viewerSocket : Nat) (kickstart : List UInt8)
    (pid : Int32) : (startRelay process serverSocket viewerSocket code kickstart pid).lists =
      forkRepeater process.lists code pid := by
  unfold startRelay
  dsimp only
  split <;> rfl

/-- Starting a relay sends nothing by itself. -/
theorem sent_startRelay (serverSocket viewerSocket : Nat) (kickstart : List UInt8)
    (pid : Int32) : (startRelay process serverSocket viewerSocket code kickstart pid).sent =
      process.sent := by
  unfold startRelay
  dsimp only
  split <;> rfl

/-- The tables and events that an outcome adds to. -/
def State.after (state : State) (outcome : Lists × List RepeaterEvent) : State where
  lists := outcome.1
  sent := state.sent ++ outcome.2

theorem after_unchanged (process : Process) :
    process.tables.after (process.lists, []) = process.tables := by
  rw [State.after, List.append_nil]
  rfl

/-- For the tables the sockets of a viewer make no difference. -/
theorem tables_acceptMode2Viewer :
    (acceptMode2Viewer settings process now accepted code).tables = process.tables.after
      (acceptViewer settings.config process.lists now code accepted.peerIp accepted.pid) := by
  unfold acceptMode2Viewer acceptViewer
  cases addViewerList process.lists code accepted.peerIp now with
  | none => exact (after_unchanged process).symm
  | some viewer =>
      obtain ⟨viewerInd, lists⟩ := viewer
      dsimp only [Process.send]
      cases findServerList lists code with
      | none => rfl
      | some serverInd =>
          simp only [Process.tables, State.after, lists_startRelay, sent_startRelay,
            List.append_assoc]
          rfl

/-- The sockets of a server leave the tables what the table model says. -/
theorem tables_acceptMode2Server :
    (acceptMode2Server settings process now accepted code).tables = process.tables.after
      (acceptServer settings.config process.lists now code accepted.peerIp accepted.pid) := by
  unfold acceptMode2Server acceptServer
  cases addServerList process.lists code accepted.peerIp now with
  | none => exact (after_unchanged process).symm
  | some server =>
      obtain ⟨serverInd, lists⟩ := server
      dsimp only [Process.send]
      cases findViewerList lists code with
      | none => rfl
      | some viewerInd =>
          simp only [Process.tables, State.after, lists_startRelay, sent_startRelay,
            List.append_assoc]
          rfl

/-- An id code does to the tables what the table model says. -/
theorem tables_acceptMode2 (connectionFrom : ConnectionFrom) (isId : checkIdCode id = true) :
    (acceptMode2 settings process now accepted connectionFrom id).tables = process.tables.after
      (acceptConnection settings.config process.lists now connectionFrom id accepted.peerIp
        accepted.pid) := by
  have refused := (after_unchanged process).symm
  unfold acceptMode2 acceptConnection
  rw [if_neg (not_not.mpr isId)]
  dsimp only
  by_cases parsed : parseId id = -1
  · rw [if_pos parsed, if_pos parsed]
    exact refused
  · rw [if_neg parsed, if_neg parsed]
    by_cases taken : findDuplicateIdIndex process.lists connectionFrom (parseId id) ≠ none
    · rw [if_pos taken, if_pos taken]
      exact refused
    · rw [if_neg taken, if_neg taken]
      by_cases unlisted : settings.config.requireListedId = true ∧
          ¬ isCodeInIdList settings.config (parseId id) = true
      · rw [if_pos unlisted, if_pos unlisted]
        exact refused
      · rw [if_neg unlisted, if_neg unlisted]
        cases connectionFrom with
        | viewer => exact tables_acceptMode2Viewer
        | server => exact tables_acceptMode2Server

/-- The remover does nothing to an entry that does not wait, or that is young and has its
peer. -/
theorem connectionRemover_of_not {config : Config} {lists : Lists}
    {connectionFrom : ConnectionFrom} {index : Nat} {peerDisconnected : Bool}
    (stays : ¬ (isExistingConnectionInactive
        ((lists.infos connectionFrom).getD index .zero).active
        (((lists.infos connectionFrom).getD index .zero).code ≠ 0) ∧
      (isConnectionTooOld now ((lists.infos connectionFrom).getD index .zero).timeStamp ∨
        peerDisconnected))) :
    connectionRemover config lists now connectionFrom index peerDisconnected = (lists, []) := by
  unfold connectionRemover
  cases connectionFrom with
  | viewer => exact if_neg stays
  | server => exact if_neg stays

/-- The remover does to the tables what the table model says. -/
theorem tables_removeSocket (connectionFrom : ConnectionFrom) (index : Nat) (result : RecvResult) :
    (removeSocket settings process now connectionFrom index result).tables = process.tables.after
      (connectionRemover settings.config process.lists now connectionFrom index
        (isPeerDisconnected result).1) := by
  unfold removeSocket
  dsimp only
  split
  · next waits =>
      split
      · rfl
      · next current =>
          rw [connectionRemover_of_not fun both => current both.2]
          exact (after_unchanged process).symm
  · next idle =>
      rw [connectionRemover_of_not fun both => idle both.1]
      exact (after_unchanged process).symm

variable {called : ProcessCall}

theorem inputsOf_none (silent : called.input = none) : inputsOf [(now, called)] = [] := by
  rw [inputsOf, List.filterMap_cons, silent]
  rfl

theorem inputsOf_some {input : Input} (seen : called.input = some input) :
    inputsOf [(now, called)] = [(now, input)] := by
  rw [inputsOf, List.filterMap_cons, seen]
  rfl

/-- A call is one input of the tables, or none. -/
theorem tables_step (mode2 : settings.allowedModes &&& connMode2 > 0)
    (mode1 : ¬ settings.allowedModes &&& connMode1 > 0) (process : Process)
    (call : Int64 × ProcessCall) : (process.step settings call).tables =
      run (step settings.config) process.tables (inputsOf [call]) := by
  obtain ⟨now, called⟩ := call
  cases called with
  | acceptConnection connectionFrom accepted =>
      unfold Process.step acceptSocket
      dsimp only
      by_cases silent : connectionFrom = .viewer ∧ ¬ accepted.versionWritten = true
      · have input : (ProcessCall.acceptConnection connectionFrom accepted).input = none :=
          if_pos silent
        rw [if_pos silent, inputsOf_none input]
        rfl
      · have input : (ProcessCall.acceptConnection connectionFrom accepted).input =
            accepted.id.map fun id => .acceptConnection connectionFrom id accepted.peerIp
              accepted.pid := if_neg silent
        rw [if_neg silent]
        cases given : accepted.id with
        | none =>
            rw [given] at input
            rw [inputsOf_none input]
            rfl
        | some id =>
            rw [given] at input
            rw [inputsOf_some input]
            dsimp only
            by_cases isId : checkIdCode id = true
            · rw [if_pos isId, if_pos mode2]
              exact tables_acceptMode2 connectionFrom isId
            · rw [if_neg isId, if_neg mode1]
              have closed : acceptConnection settings.config process.lists now connectionFrom id
                  accepted.peerIp accepted.pid = (process.lists, []) := if_pos isId
              change process.tables = process.tables.after (acceptConnection settings.config
                process.lists now connectionFrom id accepted.peerIp accepted.pid)
              rw [closed]
              exact (after_unchanged process).symm
  | connectionRemover connectionFrom index result =>
      exact tables_removeSocket connectionFrom index result
  | cleanUpAfterRepeaterProcExit exitCode pid => rfl

/-- When Mode 2 is allowed and Mode 1 is not, the process with its sockets does what
the tables do alone. -/
theorem tables_run (mode2 : settings.allowedModes &&& connMode2 > 0)
    (mode1 : ¬ settings.allowedModes &&& connMode1 > 0) (calls : List (Int64 × ProcessCall)) :
    (run (Process.step settings) (.start settings.config) calls).tables =
      run (step settings.config) (start settings.config) (inputsOf calls) := by
  induction calls using List.reverseRecOn with
  | nil => rfl
  | append_singleton calls call ih =>
      have split : inputsOf (calls ++ [call]) = inputsOf calls ++ inputsOf [call] :=
        List.filterMap_append
      rw [split, run_append, run_append, ← ih, ← tables_step mode2 mode1]
      rfl

end Tables

/-- The shipped settings allow Mode 2 only. The lists of servers are not required, so they
are not read from the file. -/
def Settings.shipped : Settings where
  config := .shipped
  allowedModes := 2
  mode1 :=
    { allowedMode1ServerPort := 0
      requireListedServer := false
      srvListAllow := List.replicate 50 ⟨255, 255, 255, 255⟩
      srvListDeny := List.replicate 50 ⟨255, 255, 255, 255⟩ }

/-- A server sends the code 7 and a handshake of three bytes. -/
def serverOfSeven : ProcessCall :=
  .acceptConnection .server
    { socket := 4
      peerIp := ⟨10, 0, 0, 1⟩
      versionWritten := true
      id := some ['I', 'D', ':', '7']
      resolved := none
      server := none
      pid := 100
      handShake := .received [82, 70, 66] :: List.replicate 5 .again }

/-- A viewer sends an id; the repeater may connect to a server on descriptor 6. -/
def viewerOf (id : List Char) (server : Option Nat) : ProcessCall :=
  .acceptConnection .viewer
    { socket := 5
      peerIp := ⟨10, 0, 0, 2⟩
      versionWritten := true
      id := some id
      resolved := some ⟨10, 0, 0, 3⟩
      server := server
      pid := 100
      handShake := [] }

/-- A server and a viewer meet, a viewer asks for a host, and the session ends. -/
def sevenServed : List (Int64 × ProcessCall) :=
  [(10, serverOfSeven), (11, viewerOf ['I', 'D', ':', '7'] none),
    (12, viewerOf ['h', 'o', 's', 't'] (some 6)), (13, .cleanUpAfterRepeaterProcExit 1 100)]

theorem tables_run_sevenServed :
    (run (Process.step .shipped) (.start Settings.shipped.config) sevenServed).tables =
      run (step .shipped) (start .shipped) (inputsOf sevenServed) :=
  tables_run (by decide) (by decide) sevenServed

end Repeater
