import MegaVnc.Foundation.Run
import MegaVnc.Foundation.Slots
import MegaVnc.Repeater.RepeaterEvents

/-! # The repeater's connection tables

The tables of the repeater and the functions that change them, as the shipped
configuration runs them: Mode 2 is allowed, Mode 1 is not, and events are sent.
An entry with code 0 is free. Sockets and handshakes are left out; what the
operating system decides (the accepted connections, the clock, the result of a
fork, whether a peer is gone, and which child has exited) is an input.
-/

namespace Repeater

open Text Slots

/-- An entry of the table of servers or of viewers; the code 0 means that it is free. -/
structure RepeaterInfo where
  code : Int64
  timeStamp : UInt64
  peerIp : AddrParts
  active : Bool
deriving DecidableEq

/-- An entry of the process table. -/
structure RepeaterProcInfo where
  code : Int64
  pid : Int32
deriving DecidableEq

/-- The three tables, of one size. -/
structure Lists where
  servers : List RepeaterInfo
  viewers : List RepeaterInfo
  repeaterProcs : List RepeaterProcInfo
deriving DecidableEq

/-- `maxsessions`, `requirelistedid`, `idlist`, and the repeater's own pid. -/
structure Config where
  maxSessions : Nat
  requireListedId : Bool
  idList : List Int32
  getpid : Int32

/-- The shipped configuration, for a repeater with pid 4321. -/
def Config.shipped : Config where
  maxSessions := 100
  requireListedId := false
  idList := []
  getpid := 4321

/-- The connection of a viewer to a server that it names. -/
def connMode1 : Int32 := 1

/-- The connection of a viewer and a server that send the same code. -/
def connMode2 : Int32 := 2

/-- The seconds after which an entry that waits is too old. -/
def maxIdleConnectionTime : UInt64 := 600

/-- The end that connects. -/
inductive ConnectionFrom where
  | server
  | viewer
deriving DecidableEq, Repr

/-- What `calloc` and `memset` leave in an entry. -/
def RepeaterInfo.zero : RepeaterInfo where
  code := 0
  timeStamp := 0
  peerIp := ⟨0, 0, 0, 0⟩
  active := false

/-- A free entry of the process table. -/
def RepeaterProcInfo.zero : RepeaterProcInfo where
  code := 0
  pid := 0

/-- All entries are free. -/
def cleanLists (maxSessions : Nat) : Lists where
  servers := List.replicate maxSessions .zero
  viewers := List.replicate maxSessions .zero
  repeaterProcs := List.replicate maxSessions .zero

/-! ### The child processes -/

/-- Without a free slot the process is not recorded. -/
def addRepeaterProcList (lists : Lists) (code : Int64) (pid : Int32) : Lists :=
  { lists with
    repeaterProcs := updateFirst (fun proc => proc.code = 0) (fun _ => { code := code, pid := pid })
      lists.repeaterProcs }

/-- The entry of the process is cleared. -/
def removeRepeaterProcList (lists : Lists) (pid : Int32) : Lists :=
  { lists with
    repeaterProcs := updateFirst (fun proc => proc.pid = pid) (fun _ => .zero)
      lists.repeaterProcs }

/-- The entry of the process. -/
def findRepeaterProcList (lists : Lists) (pid : Int32) : Option RepeaterProcInfo :=
  lists.repeaterProcs.find? fun proc => proc.pid = pid

/-! ### The servers and the viewers

The functions of the two tables differ in the table only. An index that the C
code returns as -1 or `UNKNOWN_REPINFO_IND` is `none`. -/

/-- The code gets the first free entry, if there is one. -/
def addInfo (code : Int64) (peerIp : AddrParts) (now : Int64) (infos : List RepeaterInfo) :
    Option (Nat × List RepeaterInfo) :=
  (infos.findIdx? fun info => info.code = 0).map fun index =>
    (index, updateFirst (fun info => info.code = 0)
      (fun _ => { code := code, timeStamp := now.toUInt64, peerIp := peerIp, active := false })
      infos)

/-- The first entry of the code becomes free; its other data stay. -/
def removeInfo (code : Int64) (infos : List RepeaterInfo) : List RepeaterInfo :=
  updateFirst (fun info => info.code = code)
    (fun info => { info with code := 0, active := false }) infos

/-- The first entry of the code becomes active. -/
def activateInfo (code : Int64) (infos : List RepeaterInfo) : List RepeaterInfo :=
  updateFirst (fun info => info.code = code) (fun info => { info with active := true }) infos

/-- The first entry of the code. -/
def findInfo (code : Int64) (infos : List RepeaterInfo) : Option Nat :=
  infos.findIdx? fun info => info.code = code

/-- A server gets an entry. -/
def addServerList (lists : Lists) (code : Int64) (peerIp : AddrParts) (now : Int64) :
    Option (Nat × Lists) :=
  (addInfo code peerIp now lists.servers).map fun added =>
    (added.1, { lists with servers := added.2 })

/-- The entry of the server becomes free. -/
def removeServerList (lists : Lists) (code : Int64) : Lists :=
  { lists with servers := removeInfo code lists.servers }

/-- The server is in a session. -/
def setServerActive (lists : Lists) (code : Int64) : Lists :=
  { lists with servers := activateInfo code lists.servers }

/-- The entry of the server with the code. -/
def findServerList (lists : Lists) (code : Int64) : Option Nat :=
  findInfo code lists.servers

/-- A viewer gets an entry. -/
def addViewerList (lists : Lists) (code : Int64) (peerIp : AddrParts) (now : Int64) :
    Option (Nat × Lists) :=
  (addInfo code peerIp now lists.viewers).map fun added =>
    (added.1, { lists with viewers := added.2 })

/-- The entry of the viewer becomes free. -/
def removeViewerList (lists : Lists) (code : Int64) : Lists :=
  { lists with viewers := removeInfo code lists.viewers }

/-- The viewer is in a session. -/
def setViewerActive (lists : Lists) (code : Int64) : Lists :=
  { lists with viewers := activateInfo code lists.viewers }

/-- The entry of the viewer with the code. -/
def findViewerList (lists : Lists) (code : Int64) : Option Nat :=
  findInfo code lists.viewers

/-- The address in an entry. -/
def peerIpAt (infos : List RepeaterInfo) (index : Nat) : AddrParts :=
  (infos.getD index .zero).peerIp

/-! ### Id codes -/

/-- An id code begins with `ID:`; anything else names a host. -/
def checkIdCode (idCode : List Char) : Bool :=
  idCode.take 3 = ['I', 'D', ':']

/-- The digits are read as a `long` and stored in an `int`, so the comparison
with `LONG_MAX` that follows never holds. -/
def parseId (idCode : List Char) : Int64 :=
  if ¬ checkIdCode idCode then -1
  else
    let digits := idCode.drop 3
    if ¬ digits.all Char.isDigit then -1
    else
      let retVal := Int32.ofNat (min (Nat.ofDigitChars 10 digits 0) (2 ^ 63 - 1))
      if retVal ≤ 0 then -1 else retVal.toInt64

/-- The entry of the same end that already has the code. -/
def findDuplicateIdIndex (lists : Lists) (connectionFrom : ConnectionFrom) (code : Int64) :
    Option Nat :=
  match connectionFrom with
  | .viewer => findInfo code lists.viewers
  | .server => findInfo code lists.servers

/-- The ini file lists the code. -/
def isCodeInIdList (config : Config) (code : Int64) : Bool :=
  config.idList.any fun listed => code = listed.toInt64

/-! ### Events -/

/-- The mode of an entry that is in a table. -/
def connModeOf (code : Int64) : Int32 :=
  if code < 0 then connMode1 else connMode2

/-- The event about one connection. -/
def connectionEvent (config : Config) (now : Int64) (eventNum : ConnectionEventNum)
    (tableIndex : Nat) (code : Int64) (connMode : Int32) (peerIp : AddrParts) :
    RepeaterEvent where
  timeStamp := now
  repeaterProcessId := config.getpid
  extraInfo := .connection eventNum
    { tableIndex := Int32.ofNat tableIndex, code := code, connMode := connMode, peerIp := peerIp }

/-- The event about a session, with the data of both entries. -/
def sessionEvent (config : Config) (now : Int64) (eventNum : SessionEventNum) (lists : Lists)
    (serverInd viewerInd : Nat) (code : Int64) (connMode : Int32) : RepeaterEvent where
  timeStamp := now
  repeaterProcessId := config.getpid
  extraInfo := .session eventNum
    { serverTableIndex := Int32.ofNat serverInd
      viewerTableIndex := Int32.ofNat viewerInd
      code := code
      connMode := connMode
      serverIp := peerIpAt lists.servers serverInd
      viewerIp := peerIpAt lists.viewers viewerInd }

/-- The code an event carries. -/
def RepeaterEvent.code (event : RepeaterEvent) : Int64 :=
  match event.extraInfo with
  | .connection _ connEv => connEv.code
  | .session _ sessEv => sessEv.code
  | .startEnd _ _ => 0

/-! ### Connections -/

/-- A failed fork returns -1. -/
def forkRepeater (lists : Lists) (idCode : Int64) (pid : Int32) : Lists :=
  if pid = -1 then lists else addRepeaterProcList lists idCode pid

/-- A viewer with an accepted code; a full table refuses it. -/
def acceptViewer (config : Config) (lists : Lists) (now : Int64) (code : Int64)
    (peerIp : AddrParts) (pid : Int32) : Lists × List RepeaterEvent :=
  match addViewerList lists code peerIp now with
  | none => (lists, [])
  | some (viewerInd, lists) =>
      let connected := connectionEvent config now .viewerConnect viewerInd code connMode2 peerIp
      match findServerList lists code with
      | none => (lists, [connected])
      | some serverInd =>
          let lists := setServerActive (setViewerActive lists code) code
          let lists := forkRepeater lists code pid
          (lists, [connected,
            sessionEvent config now .viewerServerSessionStart lists serverInd viewerInd code
              connMode2])

/-- A server with an accepted code; a full table refuses it. -/
def acceptServer (config : Config) (lists : Lists) (now : Int64) (code : Int64)
    (peerIp : AddrParts) (pid : Int32) : Lists × List RepeaterEvent :=
  match addServerList lists code peerIp now with
  | none => (lists, [])
  | some (serverInd, lists) =>
      let connected := connectionEvent config now .serverConnect serverInd code connMode2
        (peerIpAt lists.servers serverInd)
      match findViewerList lists code with
      | none => (lists, [connected])
      | some viewerInd =>
          let lists := setViewerActive (setServerActive lists code) code
          let lists := forkRepeater lists code pid
          (lists, [connected,
            sessionEvent config now .viewerServerSessionStart lists serverInd viewerInd code
              connMode2])

/-- A connection that sends `id`; one that does not send an id code asks for
Mode 1 and is closed. -/
def acceptConnection (config : Config) (lists : Lists) (now : Int64)
    (connectionFrom : ConnectionFrom) (id : List Char) (peerIp : AddrParts) (pid : Int32) :
    Lists × List RepeaterEvent :=
  if ¬ checkIdCode id then (lists, [])
  else
    let code := parseId id
    if code = -1 then (lists, [])
    else if findDuplicateIdIndex lists connectionFrom code ≠ none then (lists, [])
    else if config.requireListedId ∧ ¬ isCodeInIdList config code then (lists, [])
    else
      match connectionFrom with
      | .viewer => acceptViewer config lists now code peerIp pid
      | .server => acceptServer config lists now code peerIp pid

/-! ### Removal of connections that wait -/

/-- An entry is too old after the idle time. -/
def isConnectionTooOld (now : Int64) (timeStamp : UInt64) : Bool :=
  now.toUInt64 - timeStamp > maxIdleConnectionTime

/-- An entry is there and still waits. -/
def isExistingConnectionInactive (active existing : Bool) : Bool :=
  existing && !active

/-- An entry that waits is removed when it is too old or its peer is gone. -/
def connectionRemover (config : Config) (lists : Lists) (now : Int64)
    (connectionFrom : ConnectionFrom) (index : Nat) (peerDisconnected : Bool) :
    Lists × List RepeaterEvent :=
  let infos : List RepeaterInfo := match connectionFrom with
    | .viewer => lists.viewers
    | .server => lists.servers
  let rI := infos.getD index .zero
  if isExistingConnectionInactive rI.active (rI.code ≠ 0) ∧
      (isConnectionTooOld now rI.timeStamp ∨ peerDisconnected) then
    match connectionFrom with
    | .viewer => (removeViewerList lists rI.code,
        [connectionEvent config now .viewerDisconnect index rI.code (connModeOf rI.code) rI.peerIp])
    | .server => (removeServerList lists rI.code,
        [connectionEvent config now .serverDisconnect index rI.code (connModeOf rI.code) rI.peerIp])
  else (lists, [])

/-! ### The end of a session -/

/-- The exit codes of `doRepeater` that close a connection. -/
def closingExitCodes : List Int32 := [1, 2, 3, 4, 5]

/-- After a relay has ended its entries are cleared, those of the two ends only if its
status closes the session. -/
def cleanUpAfterRepeaterProcExit (config : Config) (lists : Lists) (now : Int64)
    (exitCode pid : Int32) : Lists × List RepeaterEvent :=
  match findRepeaterProcList lists pid with
  | none => (lists, [])
  | some proc =>
      match findServerList lists proc.code, findViewerList lists proc.code with
      | some serverInd, some viewerInd =>
          let ended := sessionEvent config now .viewerServerSessionEnd lists serverInd viewerInd
            proc.code (connModeOf proc.code)
          let lists := removeRepeaterProcList lists pid
          if exitCode ∈ closingExitCodes then
            (removeViewerList (removeServerList lists proc.code) proc.code, [ended])
          else (lists, [ended])
      | _, _ => (lists, [])

/-! ### Runs -/

/-- One call of the main loop, with what the operating system decides. -/
inductive Input where
  | acceptConnection (connectionFrom : ConnectionFrom) (id : List Char) (peerIp : AddrParts)
      (pid : Int32)
  | connectionRemover (connectionFrom : ConnectionFrom) (index : Nat) (peerDisconnected : Bool)
  | cleanUpAfterRepeaterProcExit (exitCode pid : Int32)
deriving DecidableEq

/-- The pid of a child is positive, and `doRepeater` returns a code from 1 to 5. -/
def Input.Legal : Input → Prop
  | .acceptConnection _ _ _ pid => pid = -1 ∨ 0 < pid
  | .connectionRemover _ _ _ => True
  | .cleanUpAfterRepeaterProcExit exitCode pid => exitCode ∈ closingExitCodes ∧ 0 < pid

instance : DecidablePred Input.Legal
  | .acceptConnection _ _ _ _ => inferInstanceAs (Decidable (_ ∨ _))
  | .connectionRemover _ _ _ => .isTrue trivial
  | .cleanUpAfterRepeaterProcExit _ _ => inferInstanceAs (Decidable (_ ∧ _))

/-- A call of the main loop on the tables. -/
def handle (config : Config) (lists : Lists) (now : Int64) :
    Input → Lists × List RepeaterEvent
  | .acceptConnection connectionFrom id peerIp pid =>
      acceptConnection config lists now connectionFrom id peerIp pid
  | .connectionRemover connectionFrom index peerDisconnected =>
      connectionRemover config lists now connectionFrom index peerDisconnected
  | .cleanUpAfterRepeaterProcExit exitCode pid =>
      cleanUpAfterRepeaterProcExit config lists now exitCode pid

/-- The tables and all events sent so far. -/
structure State where
  lists : Lists
  sent : List RepeaterEvent

/-- The tables are empty and nothing has been sent. -/
def start (config : Config) : State where
  lists := cleanLists config.maxSessions
  sent := []

/-- An input arrives at a time of the clock. -/
def step (config : Config) (state : State) (input : Int64 × Input) : State :=
  let (lists, events) := handle config state.lists input.1 input.2
  { lists := lists, sent := state.sent ++ events }

@[simp] theorem step_lists (config : Config) (state : State) (input : Int64 × Input) :
    (step config state input).lists = (handle config state.lists input.1 input.2).1 := rfl

@[simp] theorem step_sent (config : Config) (state : State) (input : Int64 × Input) :
    (step config state input).sent =
      state.sent ++ (handle config state.lists input.1 input.2).2 := rfl

end Repeater
