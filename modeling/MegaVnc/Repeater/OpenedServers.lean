import MegaVnc.Repeater.Isolation

/-! # The servers that the repeater opens

The repeater opens a connection only to a server that Mode 1 allows, whatever codes it
invents and however the operating system reuses descriptors: the address is checked
before the connection is there.
-/

namespace Repeater

open Transition

/-- A connection was accepted, or opened to an address that is allowed. -/
def Origin.Within (allowed : AddrParts → Prop) : Origin → Prop
  | .accepted _ _ => True
  | .opened _ address => allowed address

namespace Process

/-- The repeater has opened connections to allowed addresses only: those that are still
open, and those that a relay got. -/
structure Opens (allowed : AddrParts → Prop) (process : Process) : Prop where
  connections : ∀ socket, ∀ connection ∈ process.connections socket,
    connection.origin.Within allowed
  relays : ∀ relay ∈ process.relays, ∀ server ∈ relay.server, server.origin.Within allowed

variable {allowed : AddrParts → Prop} {settings : Settings} {process after : Process}
  {now : Int64} {accepted : Accepted} {connectionFrom : ConnectionFrom} {code : Int64}
  {id : List Char}

/-! ### Descriptors -/

theorem Opens.congr (opens : process.Opens allowed)
    (connections : after.connections = process.connections)
    (relays : after.relays = process.relays) : after.Opens allowed :=
  ⟨connections ▸ opens.connections, relays ▸ opens.relays⟩

/-- Only what is put behind a descriptor has to be looked at. -/
theorem Opens.update {socket : Nat} {entry : Option Connection} (opens : process.Opens allowed)
    (within : ∀ connection ∈ entry, connection.origin.Within allowed)
    (connections : after.connections = Function.update process.connections socket entry)
    (relays : after.relays = process.relays) : after.Opens allowed where
  connections other connection present := by
    rw [connections] at present
    by_cases same : other = socket
    · rw [same, Function.update_self] at present
      exact within connection present
    · rw [Function.update_of_ne same] at present
      exact opens.connections other connection present
  relays := relays ▸ opens.relays

/-- A connection that was accepted, or opened to an allowed address, may be added. -/
theorem Opens.openSocket {socket : Nat} {origin : Origin} (opens : process.Opens allowed)
    (within : origin.Within allowed) : (process.openSocket socket origin).Opens allowed := by
  refine opens.update (fun connection present => ?_) rfl rfl
  cases present
  exact within

theorem Opens.closeSocket (opens : process.Opens allowed) (socket : Nat) :
    (process.closeSocket socket).Opens allowed :=
  opens.update (fun _ present => by cases present) rfl rfl

/-- Reading from a connection leaves where it comes from. -/
theorem Opens.readFrom {change : Connection → Connection} (opens : process.Opens allowed)
    (socket : Nat) (keeps : ∀ connection, (change connection).origin = connection.origin) :
    (process.readFrom socket change).Opens allowed := by
  refine opens.update (fun connection present => ?_) rfl rfl
  obtain ⟨old, stored, rfl⟩ := Option.map_eq_some_iff.mp present
  rw [keeps old]
  exact opens.connections socket old stored

/-- A handshake leaves where its connection comes from. -/
theorem Opens.readPeerHandShake {socket index : Nat} {results : List RecvResult}
    (opens : process.Opens allowed) :
    (readPeerHandShake process socket index results).Opens allowed := by
  unfold Repeater.readPeerHandShake
  dsimp only
  refine Opens.congr (opens.readFrom socket ?_) rfl rfl
  exact fun _ => rfl

/-- A relay gets connections that were open. -/
theorem Opens.startRelay {serverSocket viewerSocket : Nat} {kickstart : List UInt8} {pid : Int32}
    (opens : process.Opens allowed) :
    (startRelay process serverSocket viewerSocket code kickstart pid).Opens allowed := by
  unfold Repeater.startRelay
  dsimp only
  split
  · exact opens.congr rfl rfl
  · refine Opens.closeSocket (Opens.closeSocket ?_ serverSocket) viewerSocket
    refine ⟨opens.connections, fun relay member server given => ?_⟩
    rcases List.mem_append.mp member with old | new
    · exact opens.relays relay old server given
    · rw [List.mem_singleton.mp new] at given
      exact opens.connections serverSocket server given

theorem Opens.send (opens : process.Opens allowed) (events : List RepeaterEvent) :
    (process.send events).Opens allowed :=
  ⟨opens.connections, opens.relays⟩

/-! ### Calls -/

/-- A viewer of Mode 2 opens no connection. -/
theorem Opens.acceptMode2Viewer (opens : process.Opens allowed) :
    (acceptMode2Viewer settings process now accepted code).Opens allowed := by
  unfold Repeater.acceptMode2Viewer
  cases addViewerList process.lists code accepted.peerIp now with
  | none => exact opens.closeSocket accepted.socket
  | some viewer =>
      obtain ⟨viewerInd, lists⟩ := viewer
      dsimp only
      split
      · exact ⟨opens.connections, opens.relays⟩
      · refine Opens.send (Opens.startRelay ?_) _
        exact ⟨opens.connections, opens.relays⟩

/-- A server of Mode 2 opens none. -/
theorem Opens.acceptMode2Server (opens : process.Opens allowed) :
    (acceptMode2Server settings process now accepted code).Opens allowed := by
  unfold Repeater.acceptMode2Server
  cases addServerList process.lists code accepted.peerIp now with
  | none => exact opens.closeSocket accepted.socket
  | some server =>
      obtain ⟨serverInd, lists⟩ := server
      dsimp only
      split
      · refine Opens.readPeerHandShake ?_
        exact ⟨opens.connections, opens.relays⟩
      · refine Opens.send (Opens.startRelay ?_) _
        exact ⟨opens.connections, opens.relays⟩

/-- An id code opens none. -/
theorem Opens.acceptMode2 (opens : process.Opens allowed) :
    (acceptMode2 settings process now accepted connectionFrom id).Opens allowed := by
  have refused := opens.closeSocket accepted.socket
  unfold Repeater.acceptMode2
  dsimp only
  split
  · exact refused
  · split
    · exact refused
    · split
      · exact refused
      · cases connectionFrom with
        | viewer => exact opens.acceptMode2Viewer
        | server => exact opens.acceptMode2Server

/-- The session of an opened server opens no other. -/
theorem Opens.addMode1Session {server : Nat} {serverIp : AddrParts}
    (opens : process.Opens allowed) :
    (addMode1Session settings process now accepted server serverIp code).Opens allowed := by
  obtain ⟨connections, relays⟩ := opens
  unfold Repeater.addMode1Session
  cases addViewerList process.lists code accepted.peerIp now with
  | none =>
      dsimp only
      cases addServerList process.lists code serverIp now with
      | none => exact Opens.closeSocket (Opens.closeSocket ⟨connections, relays⟩ server) _
      | some server =>
          refine Opens.closeSocket ?_ accepted.socket
          exact ⟨connections, relays⟩
  | some viewer =>
      obtain ⟨viewerInd, lists⟩ := viewer
      dsimp only
      cases addServerList (setViewerActive lists code) code serverIp now with
      | none =>
          refine Opens.closeSocket ?_ server
          exact ⟨connections, relays⟩
      | some added =>
          refine Opens.send (Opens.startRelay ?_) _
          exact ⟨connections, relays⟩

/-- The address is checked before the connection is opened. -/
theorem Opens.acceptMode1 (opens : process.Opens allowed)
    (checked : ∀ address,
      (settings.mode1.requireListedServer = true → settings.mode1.Allows address) →
        allowed address) :
    (acceptMode1 settings process now accepted connectionFrom id).Opens allowed := by
  have refused := opens.closeSocket accepted.socket
  unfold Repeater.acceptMode1
  split
  · exact refused
  · split
    · exact refused
    · cases connectionFrom with
      | server => exact refused
      | viewer =>
          unfold acceptMode1Viewer
          cases connected : openConnectionToVncServer settings.mode1 accepted with
          | none => exact refused
          | some opened =>
              obtain ⟨server, serverIp⟩ := opened
              have within : (Origin.opened id serverIp).Within allowed :=
                checked serverIp (openConnectionToVncServer_eq_some connected).2
              exact Opens.addMode1Session ((opens.openSocket within).congr rfl rfl)

/-- An accepted connection opens at most one that is allowed. -/
theorem Opens.acceptSocket (opens : process.Opens allowed)
    (checked : ∀ address,
      (settings.mode1.requireListedServer = true → settings.mode1.Allows address) →
        allowed address) :
    (acceptSocket settings process now accepted connectionFrom).Opens allowed := by
  have opened : (process.openSocket accepted.socket
      (.accepted connectionFrom accepted.id)).Opens allowed := opens.openSocket trivial
  have refused := opened.closeSocket accepted.socket
  unfold Repeater.acceptSocket
  dsimp only
  split
  · exact refused
  · split
    · exact refused
    · split
      · split
        · exact opened.acceptMode2
        · exact refused
      · split
        · exact opened.acceptMode1 checked
        · exact refused

/-- The remover opens none. -/
theorem Opens.removeSocket {index : Nat} {result : RecvResult} (opens : process.Opens allowed) :
    (removeSocket settings process now connectionFrom index result).Opens allowed := by
  unfold Repeater.removeSocket
  dsimp only
  split
  · split
    · exact Opens.congr (opens.closeSocket _) rfl rfl
    · exact opens.readFrom _ fun _ => rfl
  · exact opens

/-- A call opens connections to addresses that Mode 1 allows. -/
theorem Opens.step (opens : process.Opens allowed)
    (checked : ∀ address,
      (settings.mode1.requireListedServer = true → settings.mode1.Allows address) →
        allowed address) (call : Int64 × ProcessCall) :
    (process.step settings call).Opens allowed := by
  obtain ⟨now, called⟩ := call
  cases called with
  | acceptConnection connectionFrom accepted => exact opens.acceptSocket checked
  | connectionRemover connectionFrom index result => exact opens.removeSocket
  | cleanUpAfterRepeaterProcExit exitCode pid => exact opens.congr rfl rfl

theorem opens_start (config : Config) : (Process.start config).Opens allowed where
  connections _ _ present := by cases present
  relays relay member := by cases member

/-- In every run the servers that the repeater has opened are ones that Mode 1 allows. -/
theorem opens_run (settings : Settings) (calls : List (Int64 × ProcessCall)) :
    (run (Process.step settings) (.start settings.config) calls).Opens fun address =>
      settings.mode1.requireListedServer = true → settings.mode1.Allows address :=
  have reached : Reachable (Process.step settings) (.start settings.config)
      (run (Process.step settings) (.start settings.config) calls) := ⟨calls, rfl⟩
  reached.invariant _ (fun _ call opens => opens.step (fun _ kept => kept) call)
    (opens_start settings.config)

end Process

end Repeater
