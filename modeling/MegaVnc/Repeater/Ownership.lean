import MegaVnc.Foundation.Custody
import MegaVnc.Repeater.SafeTables

/-! # Entries own descriptors

An entry that waits owns the descriptor of the connection that sent its code. A
session takes the descriptors of both ends and gives their connections to a relay.
-/

namespace Repeater

open Custody Slots Transition

/-! ### Descriptors and connections -/

namespace Process

/-- The descriptor of an entry that waits. -/
def held (process : Process) (owner : ConnectionFrom × Nat) : Option Nat :=
  heldAt (process.lists.infos owner.1) (process.sockets owner.1) owner.2

/-- The open descriptors that no entry holds. -/
def loose (process : Process) : Set Nat :=
  Custody.loose process.held process.connections

/-- The code of an entry. -/
def codeAt (process : Process) (owner : ConnectionFrom × Nat) : Int64 :=
  ((process.lists.infos owner.1).getD owner.2 .zero).code

/-- A connection that sent the code of the entry, to the port of its table; the
handshake stored for a server is the one read from it. -/
def Suits (process : Process) (owner : ConnectionFrom × Nat) (connection : Connection) : Prop :=
  (∃ id, connection.origin = .accepted owner.1 (some id) ∧ parseId id = process.codeAt owner) ∧
    (owner.1 = .server → process.handShakes.getD owner.2 [] = connection.handShake)

/-- The numbers of the connections that relays were given. -/
def relayed (process : Process) : List Nat :=
  process.relays.flatMap fun relay =>
    (relay.server.toList ++ relay.viewer.toList).map Connection.number

/-- No connection is behind two descriptors, or given to two relays, or still open
after it was given to one. -/
structure Numbered (process : Process) : Prop where
  open_lt : ∀ socket connection, process.connections socket = some connection →
    connection.number < process.arrivals
  open_sole : ∀ first second one two, process.connections first = some one →
    process.connections second = some two → one.number = two.number → first = second
  relayed_lt : ∀ number ∈ process.relayed, number < process.arrivals
  relayed_nodup : process.relayed.Nodup
  relayed_gone : ∀ socket connection, process.connections socket = some connection →
    connection.number ∉ process.relayed

end Process

/-- Both ends sent the code of the relay, and the viewer was written the handshake of
that server. -/
structure RelayStart.Matched (relay : RelayStart) (server viewer : Connection) : Prop where
  serverSent : ∃ id, server.origin = .accepted .server (some id) ∧ parseId id = relay.code
  viewerSent : ∃ id, viewer.origin = .accepted .viewer (some id) ∧ parseId id = relay.code
  kickstart : relay.kickstart = server.handShake

/-- The server is the one that the repeater opened for the request of this viewer, at
a port and an address that are allowed. -/
structure RelayStart.Requested (mode1 : Mode1) (relay : RelayStart)
    (server viewer : Connection) : Prop where
  kickstart : relay.kickstart = []
  next : server.number = viewer.number + 1
  request : ∃ id host port address, viewer.origin = .accepted .viewer (some id) ∧
    server.origin = .opened id address ∧ parseHostAndPort id = some (host, port) ∧
    (mode1.allowedMode1ServerPort = 0 ∨ port = mode1.allowedMode1ServerPort) ∧
    (mode1.requireListedServer = true → mode1.Allows address)

/-- A relay has two connections that belong together. -/
def RelayStart.Proper (mode1 : Mode1) (relay : RelayStart) : Prop :=
  ∃ server viewer, relay.server = some server ∧ relay.viewer = some viewer ∧
    (relay.Matched server viewer ∨ relay.Requested mode1 server viewer)

/-- What holds between two calls. -/
structure Process.Sound (mode1 : Mode1) (process : Process) : Prop where
  safe : process.lists.Safe
  sizes : ∀ connectionFrom, (process.sockets connectionFrom).length =
    (process.lists.infos connectionFrom).length
  handShakes : process.handShakes.length = process.lists.servers.length
  mode1ConnCode : minInventedConnCode ≤ process.mode1ConnCode ∧ process.mode1ConnCode ≤ 0
  keeps : Keeps process.Suits process.held process.connections
  numbered : process.Numbered
  proper : ∀ relay ∈ process.relays, relay.Proper mode1

/-- Invented codes are negative. -/
theorem nextMode1ConnCode_bounds {code : Int64} (low : minInventedConnCode ≤ code)
    (high : code ≤ 0) :
    minInventedConnCode ≤ nextMode1ConnCode code ∧ nextMode1ConnCode code < 0 := by
  unfold nextMode1ConnCode
  split
  · decide
  · next enough =>
      refine ⟨Int64.not_lt.mp enough, ?_⟩
      rw [Int64.le_iff_toInt_le] at low high
      have least : minInventedConnCode.toInt = -1000000 := by decide
      have zero : (0 : Int64).toInt = 0 := by decide
      have one : (1 : Int64).toInt = 1 := by decide
      rw [least] at low
      rw [zero] at high
      rw [Int64.lt_iff_toInt_lt, Int64.toInt_sub, zero, one,
        Int.bmod_eq_of_le (by omega) (by omega)]
      omega

/-- What holds after a call whose `fork` returned `pid`: unless that failed, the
descriptors in no entry are the given ones. -/
structure Process.Ends (mode1 : Mode1) (pid : Int32) (loose : Set Nat) (process : Process) :
    Prop where
  sound : process.Sound mode1
  loose : pid ≠ -1 → process.loose = loose

namespace Process

variable {process : Process} {mode1 : Mode1} {socket : Nat} {origin : Origin}
  {connection : Connection} {change : Connection → Connection}

section Numbered

variable {other : Nat}

/-- What is behind a descriptor was there, or is the new connection. -/
theorem openSocket_present
    (present : (process.openSocket socket origin).connections other = some connection) :
    other = socket ∧ connection.number = process.arrivals ∨
      other ≠ socket ∧ process.connections other = some connection := by
  rw [connections_openSocket] at present
  by_cases same : other = socket
  · subst same
    rw [Function.update_self, Option.some.injEq] at present
    exact Or.inl ⟨rfl, present ▸ rfl⟩
  · rw [Function.update_of_ne same] at present
    exact Or.inr ⟨same, present⟩

/-- What is behind a descriptor after a close was there before. -/
theorem closeSocket_present
    (present : (process.closeSocket socket).connections other = some connection) :
    process.connections other = some connection := by
  rw [connections_closeSocket] at present
  by_cases same : other = socket
  · subst same
    rw [Function.update_self] at present
    cases present
  · rwa [Function.update_of_ne same] at present

/-- Reading changes one connection at most. -/
theorem readFrom_present
    (present : (process.readFrom socket change).connections other = some connection) :
    ∃ old, process.connections other = some old ∧ (connection = old ∨ connection = change old) := by
  rw [connections_readFrom] at present
  by_cases same : other = socket
  · subst same
    rw [Function.update_self, Option.map_eq_some_iff] at present
    obtain ⟨old, stored, changed⟩ := present
    exact ⟨old, stored, Or.inr changed.symm⟩
  · rw [Function.update_of_ne same] at present
    exact ⟨connection, present, Or.inl rfl⟩

/-- A new connection has a number of its own. -/
theorem Numbered.openSocket (numbered : process.Numbered) :
    (process.openSocket socket origin).Numbered where
  open_lt other connection present := by
    rcases openSocket_present present with ⟨-, number⟩ | ⟨-, old⟩
    · exact number ▸ Nat.lt_succ_self _
    · exact Nat.lt_succ_of_lt (numbered.open_lt other connection old)
  open_sole first second one two presentOne presentTwo same := by
    rcases openSocket_present presentOne with ⟨isFirst, newOne⟩ | ⟨-, oldOne⟩
    · rcases openSocket_present presentTwo with ⟨isSecond, -⟩ | ⟨-, oldTwo⟩
      · exact isFirst.trans isSecond.symm
      · exact ((numbered.open_lt second two oldTwo).ne (same.symm.trans newOne)).elim
    · rcases openSocket_present presentTwo with ⟨-, newTwo⟩ | ⟨-, oldTwo⟩
      · exact ((numbered.open_lt first one oldOne).ne (same.trans newTwo)).elim
      · exact numbered.open_sole first second one two oldOne oldTwo same
  relayed_lt number member := Nat.lt_succ_of_lt (numbered.relayed_lt number member)
  relayed_nodup := numbered.relayed_nodup
  relayed_gone other connection present member := by
    rcases openSocket_present present with ⟨-, number⟩ | ⟨-, old⟩
    · exact (numbered.relayed_lt _ member).ne number
    · exact numbered.relayed_gone other connection old member

/-- Fewer connections, with the same numbers. -/
theorem Numbered.of_open {after : Process} (numbered : process.Numbered)
    (opens : ∀ socket connection, after.connections socket = some connection →
      ∃ old, process.connections socket = some old ∧ old.number = connection.number)
    (arrivals : after.arrivals = process.arrivals) (relays : after.relays = process.relays) :
    after.Numbered where
  open_lt socket connection present := by
    obtain ⟨old, stored, number⟩ := opens socket connection present
    rw [arrivals, ← number]
    exact numbered.open_lt socket old stored
  open_sole first second one two presentOne presentTwo same := by
    obtain ⟨oldOne, storedOne, numberOne⟩ := opens first one presentOne
    obtain ⟨oldTwo, storedTwo, numberTwo⟩ := opens second two presentTwo
    exact numbered.open_sole first second oldOne oldTwo storedOne storedTwo
      (numberOne.trans (same.trans numberTwo.symm))
  relayed_lt number member := by
    rw [relayed, relays] at member
    rw [arrivals]
    exact numbered.relayed_lt number member
  relayed_nodup := by
    rw [relayed, relays]
    exact numbered.relayed_nodup
  relayed_gone socket connection present member := by
    obtain ⟨old, stored, number⟩ := opens socket connection present
    rw [relayed, relays, ← number] at member
    exact numbered.relayed_gone socket old stored member

/-- Numbers stay apart where connections and relays are the same. -/
theorem Numbered.congr {after : Process} (numbered : process.Numbered)
    (connections : after.connections = process.connections)
    (arrivals : after.arrivals = process.arrivals) (relays : after.relays = process.relays) :
    after.Numbered :=
  numbered.of_open (fun _ connection present => ⟨connection, connections ▸ present, rfl⟩) arrivals
    relays

theorem Numbered.closeSocket (numbered : process.Numbered) (socket : Nat) :
    (process.closeSocket socket).Numbered :=
  numbered.of_open (fun _ connection present =>
    ⟨connection, closeSocket_present present, rfl⟩) rfl rfl

/-- Reading keeps the numbers of connections apart. -/
theorem Numbered.readFrom (numbered : process.Numbered) (socket : Nat)
    (same : ∀ connection, (change connection).number = connection.number) :
    (process.readFrom socket change).Numbered := by
  refine numbered.of_open (fun other connection present => ?_) rfl rfl
  obtain ⟨old, stored, rfl | rfl⟩ := readFrom_present present
  · exact ⟨_, stored, rfl⟩
  · exact ⟨old, stored, (same old).symm⟩

/-- Two connections are given to a relay and closed. -/
theorem Numbered.relay {after : Process} {relay : RelayStart} {serverSocket viewerSocket : Nat}
    {server viewer : Connection} (numbered : process.Numbered)
    (serverOpen : process.connections serverSocket = some server)
    (viewerOpen : process.connections viewerSocket = some viewer)
    (different : serverSocket ≠ viewerSocket)
    (ends : relay.server = some server ∧ relay.viewer = some viewer)
    (relays : after.relays = process.relays ++ [relay])
    (arrivals : after.arrivals = process.arrivals)
    (connections : after.connections = Function.update
      (Function.update process.connections serverSocket none) viewerSocket none) :
    after.Numbered := by
  have numbers : after.relayed = process.relayed ++ [server.number, viewer.number] := by
    rw [relayed, relays, List.flatMap_append, List.flatMap_singleton, ends.1, ends.2]
    rfl
  have stays {socket : Nat} {connection : Connection}
      (present : after.connections socket = some connection) :
      process.connections socket = some connection ∧ socket ≠ serverSocket ∧
        socket ≠ viewerSocket := by
    rw [connections] at present
    by_cases isViewer : socket = viewerSocket
    · subst isViewer
      rw [Function.update_self] at present
      cases present
    · rw [Function.update_of_ne isViewer] at present
      by_cases isServer : socket = serverSocket
      · subst isServer
        rw [Function.update_self] at present
        cases present
      · rw [Function.update_of_ne isServer] at present
        exact ⟨present, isServer, isViewer⟩
  refine ⟨?_, ?_, ?_, ?_, ?_⟩
  · intro socket connection present
    exact arrivals ▸ numbered.open_lt socket connection (stays present).1
  · intro first second one two presentOne presentTwo same
    exact numbered.open_sole first second one two (stays presentOne).1 (stays presentTwo).1 same
  · rw [numbers, arrivals]
    refine List.forall_mem_append.mpr ⟨numbered.relayed_lt, List.forall_mem_cons.mpr
      ⟨numbered.open_lt serverSocket server serverOpen, List.forall_mem_singleton.mpr
        (numbered.open_lt viewerSocket viewer viewerOpen)⟩⟩
  · have apart : server.number ≠ viewer.number := fun same =>
      different (numbered.open_sole _ _ _ _ serverOpen viewerOpen same)
    rw [numbers]
    refine List.nodup_append.mpr ⟨numbered.relayed_nodup, ?_, ?_⟩
    · rw [List.nodup_cons, List.mem_singleton]
      exact ⟨apart, List.pairwise_singleton _ _⟩
    · rintro number member last new rfl
      rcases List.mem_cons.mp new with rfl | second
      · exact numbered.relayed_gone serverSocket server serverOpen member
      · rw [List.mem_singleton.mp second] at member
        exact numbered.relayed_gone viewerSocket viewer viewerOpen member
  · intro socket connection present member
    obtain ⟨old, notServer, notViewer⟩ := stays present
    rw [numbers] at member
    rcases List.mem_append.mp member with before | new
    · exact numbered.relayed_gone socket connection old before
    · rcases List.mem_cons.mp new with same | second
      · exact notServer (numbered.open_sole _ _ _ _ old serverOpen same)
      · exact notViewer (numbered.open_sole _ _ _ _ old viewerOpen (List.mem_singleton.mp second))

end Numbered

/-! ### The owners of the descriptors -/

variable {after : Process} {connectionFrom : ConnectionFrom} {index : Nat} {value : Option Nat}
  {code : Int64} {peerIp : AddrParts} {now : Int64} {next : List RepeaterInfo} {pid : Int32}

/-- One table lets an entry hold something else. -/
theorem held_eq_update
    (own : heldAt (after.lists.infos connectionFrom) (after.sockets connectionFrom) =
      Function.update (heldAt (process.lists.infos connectionFrom)
        (process.sockets connectionFrom)) index value)
    (other : heldAt (after.lists.infos connectionFrom.other)
        (after.sockets connectionFrom.other) =
      heldAt (process.lists.infos connectionFrom.other) (process.sockets connectionFrom.other)) :
    after.held = Function.update process.held (connectionFrom, index) value := by
  funext owner
  obtain ⟨side, position⟩ := owner
  unfold held
  dsimp only
  rcases side.eq_or_other connectionFrom with rfl | rfl
  · rw [own]
    by_cases same : position = index
    · subst same
      rw [Function.update_self, Function.update_self]
    · have different : (side, position) ≠ (side, index) := fun pairs =>
        same (congrArg Prod.snd pairs)
      rw [Function.update_of_ne same, Function.update_of_ne different]
  · have different : (connectionFrom.other, position) ≠ (connectionFrom, index) := fun pairs =>
      connectionFrom.other_ne (congrArg Prod.fst pairs)
    rw [other, Function.update_of_ne different]

/-- An unused descriptor may be opened. -/
theorem Sound.openSocket (sound : process.Sound mode1) (unused : process.connections socket = none)
    (origin : Origin) : (process.openSocket socket origin).Sound mode1 where
  safe := sound.safe
  sizes := sound.sizes
  handShakes := sound.handShakes
  mode1ConnCode := sound.mode1ConnCode
  keeps := sound.keeps.update_other (sound.keeps.not_held unused) _
  numbered := sound.numbered.openSocket
  proper := sound.proper

/-- A descriptor that no entry holds may be closed. -/
theorem Sound.closeSocket (sound : process.Sound mode1)
    (unheld : ∀ owner, process.held owner ≠ some socket) :
    (process.closeSocket socket).Sound mode1 where
  safe := sound.safe
  sizes := sound.sizes
  handShakes := sound.handShakes
  mode1ConnCode := sound.mode1ConnCode
  keeps := sound.keeps.update_other unheld _
  numbered := sound.numbered.closeSocket socket
  proper := sound.proper

/-- Events make no difference to descriptors. -/
theorem Sound.send (sound : process.Sound mode1) (events : List RepeaterEvent) :
    (process.send events).Sound mode1 where
  safe := sound.safe
  sizes := sound.sizes
  handShakes := sound.handShakes
  mode1ConnCode := sound.mode1ConnCode
  keeps := sound.keeps
  numbered := sound.numbered.congr rfl rfl rfl
  proper := sound.proper

/-- A table gets other entries, and an entry its socket. -/
def place (process : Process) (connectionFrom : ConnectionFrom) (infos : List RepeaterInfo)
    (index socket : Nat) : Process :=
  match connectionFrom with
  | .viewer => { process with
      lists := process.lists.put .viewer infos
      viewerSockets := process.viewerSockets.set index socket }
  | .server => { process with
      lists := process.lists.put .server infos
      serverSockets := process.serverSockets.set index socket }

theorem lists_place : (process.place connectionFrom next index socket).lists =
    process.lists.put connectionFrom next := by
  cases connectionFrom <;> rfl

theorem sockets_place_self :
    (process.place connectionFrom next index socket).sockets connectionFrom =
      (process.sockets connectionFrom).set index socket := by
  cases connectionFrom <;> rfl

theorem sockets_place_other :
    (process.place connectionFrom next index socket).sockets connectionFrom.other =
      process.sockets connectionFrom.other := by
  cases connectionFrom <;> rfl

theorem connections_place : (process.place connectionFrom next index socket).connections =
    process.connections := by
  cases connectionFrom <;> rfl

theorem getD_set_ne {α : Type*} {values : List α} {position index : Nat} {value default : α}
    (different : position ≠ index) :
    (values.set index value).getD position default = values.getD position default := by
  rw [List.getD_eq_getElem?_getD, List.getElem?_set_ne (Ne.symm different),
    ← List.getD_eq_getElem?_getD]

theorem getD_set_self {α : Type*} {values : List α} {index : Nat} {value default : α}
    (inside : index < values.length) : (values.set index value).getD index default = value := by
  rw [List.getD_eq_getElem?_getD, List.getElem?_set_self inside]
  rfl

theorem handShakes_place : (process.place connectionFrom next index socket).handShakes =
    process.handShakes := by
  cases connectionFrom <;> rfl

/-- The other entries keep their codes. -/
theorem suits_place_of_ne
    (kept : ∀ position ≠ index, (next.getD position .zero).code =
      ((process.lists.infos connectionFrom).getD position .zero).code)
    (owner : ConnectionFrom × Nat) (different : owner ≠ (connectionFrom, index))
    (connection : Connection) (suits : process.Suits owner connection) :
    (process.place connectionFrom next index socket).Suits owner connection := by
  obtain ⟨side, position⟩ := owner
  obtain ⟨⟨id, origin, parsed⟩, handShake⟩ := suits
  refine ⟨⟨id, origin, parsed.trans ?_⟩, fun isServer => ?_⟩
  · unfold codeAt
    rw [lists_place]
    dsimp only
    rcases side.eq_or_other connectionFrom with rfl | rfl
    · rw [infos_put_self, kept position fun same => different (congrArg _ same)]
    · rw [infos_put_other]
  · rw [handShakes_place]
    exact handShake isServer

/-- An entry is placed without a change of what the other ones hold. -/
theorem Sound.of_place (sound : process.Sound mode1)
    (safe : (process.lists.put connectionFrom next).Safe)
    (length : next.length = (process.lists.infos connectionFrom).length)
    (keeps : Keeps (process.place connectionFrom next index socket).Suits
      (process.place connectionFrom next index socket).held process.connections) :
    (process.place connectionFrom next index socket).Sound mode1 where
  safe := lists_place ▸ safe
  sizes side := by
    rw [lists_place]
    rcases side.eq_or_other connectionFrom with rfl | rfl
    · rw [sockets_place_self, infos_put_self, List.length_set, length, sound.sizes]
    · rw [sockets_place_other, infos_put_other]
      exact sound.sizes _
  handShakes := by
    cases connectionFrom with
    | viewer => exact sound.handShakes
    | server => exact sound.handShakes.trans length.symm
  mode1ConnCode := by cases connectionFrom <;> exact sound.mode1ConnCode
  keeps := connections_place.symm ▸ keeps
  numbered := sound.numbered.congr connections_place (by cases connectionFrom <;> rfl)
    (by cases connectionFrom <;> rfl)
  proper relay member := sound.proper relay (by cases connectionFrom <;> exact member)

/-- A new entry waits with the connection that sent its code. -/
theorem Sound.place (sound : process.Sound mode1) (named : code ≠ 0)
    (added : addInfo code peerIp now (process.lists.infos connectionFrom) = some (index, next))
    (absent : entry code (process.lists.infos connectionFrom) = none)
    (unheld : ∀ owner, process.held owner ≠ some socket)
    (present : process.connections socket = some connection)
    (sent : ∃ id, connection.origin = .accepted connectionFrom (some id) ∧ parseId id = code)
    (handShake : connectionFrom = .server →
      process.handShakes.getD index [] = connection.handShake) :
    (process.place connectionFrom next index socket).Sound mode1 ∧
      (process.place connectionFrom next index socket).held =
        Function.update process.held (connectionFrom, index) (some socket) := by
  have held : (process.place connectionFrom next index socket).held =
      Function.update process.held (connectionFrom, index) (some socket) := by
    apply held_eq_update
    · rw [lists_place, sockets_place_self, infos_put_self]
      exact heldAt_addInfo added named (sound.sizes connectionFrom)
    · rw [lists_place, sockets_place_other, infos_put_other]
  refine ⟨sound.of_place (safe_addInfo sound.safe named added absent) (length_addInfo added) ?_,
    held⟩
  rw [held]
  refine sound.keeps.take unheld present ⟨?_, fun isServer => ?_⟩ (suits_place_of_ne ?_)
  · obtain ⟨id, origin, parsed⟩ := sent
    refine ⟨id, origin, parsed.trans ?_⟩
    unfold codeAt
    rw [lists_place, infos_put_self, getD_addInfo added, if_pos rfl]
  · rw [handShakes_place]
    exact handShake isServer
  · intro position other
    rw [getD_addInfo added, if_neg other]

/-- A new entry of Mode 1 is active and holds nothing. -/
theorem Sound.placeActive (sound : process.Sound mode1) (negative : code < 0)
    (added : addInfo code peerIp now (process.lists.infos connectionFrom) = some (index, next))
    (absent : entry code (process.lists.infos connectionFrom) = none) :
    (process.place connectionFrom (activateInfo code next) index socket).Sound mode1 ∧
      (process.place connectionFrom (activateInfo code next) index socket).held =
        process.held := by
  have named : code ≠ 0 := by
    rintro rfl
    exact absurd negative (by decide)
  have free : process.held (connectionFrom, index) = none := heldAt_of_added added
  have held : (process.place connectionFrom (activateInfo code next) index socket).held =
      process.held := by
    rw [← Function.update_eq_self (connectionFrom, index) process.held, free]
    apply held_eq_update
    · rw [lists_place, sockets_place_self, infos_put_self,
        heldAt_addInfo_activateInfo (sound.safe.apart _) added absent named (sound.sizes _)]
      exact (Function.update_eq_self_iff.mpr (heldAt_of_added added).symm).symm
    · rw [lists_place, sockets_place_other, infos_put_other]
  refine ⟨sound.of_place (safe_addInfo_activateInfo sound.safe negative added absent)
    (length_updateFirst.trans (length_addInfo added)) ?_, held⟩
  rw [held]
  refine sound.keeps.imp fun owner taken holds content suits =>
    suits_place_of_ne (fun position other => ?_) owner (fun same => ?_) content suits
  · rw [code_activateInfo (findInfo_addInfo (sound.safe.apart _) added absent named),
      getD_addInfo added, if_neg other]
  · rw [same, free] at holds
    cases holds

/-- The handshake of an entry that holds nothing is cleared. -/
theorem Sound.clearHandShake (sound : process.Sound mode1)
    (free : process.held (.server, index) = none) :
    Sound mode1 { process with handShakes := process.handShakes.set index [] } where
  safe := sound.safe
  sizes := sound.sizes
  handShakes := List.length_set.trans sound.handShakes
  mode1ConnCode := sound.mode1ConnCode
  keeps := by
    refine sound.keeps.imp fun owner taken holds content suits => ⟨suits.1, fun isServer => ?_⟩
    refine (getD_set_ne fun same => ?_).trans (suits.2 isServer)
    rw [show owner = (.server, index) from Prod.ext isServer same, free] at holds
    cases holds
  numbered := sound.numbered.congr rfl rfl rfl
  proper := sound.proper

/-- The handshake of a waiting server is read. -/
theorem Sound.readPeerHandShake {results : List RecvResult} (sound : process.Sound mode1)
    (inside : index < process.handShakes.length)
    (holds : process.held (.server, index) = some socket) :
    (readPeerHandShake process socket index results).Sound mode1 where
  safe := sound.safe
  sizes := sound.sizes
  handShakes := by
    unfold Repeater.readPeerHandShake
    dsimp only
    rw [List.length_set]
    exact sound.handShakes
  mode1ConnCode := sound.mode1ConnCode
  keeps := by
    refine sound.keeps.change _ ?_ ?_
    · intro owner content holdsToo suits
      cases sound.keeps.sole owner (.server, index) socket holdsToo holds
      exact ⟨suits.1, fun _ => getD_set_self inside⟩
    · intro owner taken content holdsOther different suits
      refine ⟨suits.1, fun isServer => (getD_set_ne fun same => different ?_).trans
        (suits.2 isServer)⟩
      have owns : owner = (.server, index) := Prod.ext isServer same
      rw [owns, holds, Option.some.injEq] at holdsOther
      exact holdsOther.symm
  numbered := by
    refine sound.numbered.of_open (fun other connection present => ?_) rfl rfl
    obtain ⟨old, stored, rfl | rfl⟩ := readFrom_present present
    · exact ⟨_, stored, rfl⟩
    · exact ⟨old, stored, rfl⟩
  proper := sound.proper

/-! ### Sessions -/

/-- A session leaves the codes of all entries. -/
theorem codeAt_activate {serverInd viewerInd : Nat}
    (serverFound : findInfo code process.lists.servers = some serverInd)
    (viewerFound : findInfo code process.lists.viewers = some viewerInd)
    (owner : ConnectionFrom × Nat) :
    codeAt { process with lists := process.lists.activate code } owner = process.codeAt owner := by
  obtain ⟨side, position⟩ := owner
  cases side with
  | viewer => exact code_activateInfo viewerFound position
  | server => exact code_activateInfo serverFound position

/-- When a session starts, both of its entries let their descriptors go. -/
theorem held_activate {serverInd viewerInd : Nat}
    (serverFound : findInfo code process.lists.servers = some serverInd)
    (viewerFound : findInfo code process.lists.viewers = some viewerInd) :
    held { process with lists := process.lists.activate code } =
      Function.update (Function.update process.held (.viewer, viewerInd) none)
        (.server, serverInd) none := by
  have viewers : held { process with lists := setViewerActive process.lists code } =
      Function.update process.held (.viewer, viewerInd) none :=
    held_eq_update (heldAt_activateInfo viewerFound) rfl
  rw [← viewers]
  exact held_eq_update (heldAt_activateInfo serverFound) rfl

/-- The ends of a code become active and let their descriptors go. -/
theorem Sound.activate {serverInd viewerInd : Nat} (sound : process.Sound mode1)
    (named : code ≠ 0) (serverFound : findInfo code process.lists.servers = some serverInd)
    (viewerFound : findInfo code process.lists.viewers = some viewerInd)
    (waits : entry code (process.lists.infos connectionFrom) ≠ some true) :
    Sound mode1 { process with lists := process.lists.activate code } where
  safe := by
    refine safe_activate sound.safe named (fun side => ?_) waits
    cases side with
    | viewer => exact entry_ne_none_of_found viewerFound
    | server => exact entry_ne_none_of_found serverFound
  sizes side := by
    dsimp only
    rw [infos_activate, activateInfo, length_updateFirst]
    exact sound.sizes side
  handShakes := sound.handShakes.trans length_updateFirst.symm
  mode1ConnCode := sound.mode1ConnCode
  keeps := by
    rw [held_activate serverFound viewerFound]
    refine (sound.keeps.drop _ fun _ _ _ suits => suits).drop _ fun owner _ content suits => ?_
    obtain ⟨⟨id, origin, parsed⟩, handShake⟩ := suits
    exact ⟨⟨id, origin, parsed.trans (codeAt_activate serverFound viewerFound owner).symm⟩,
      handShake⟩
  numbered := sound.numbered.congr rfl rfl rfl
  proper := sound.proper

/-- Which descriptors entries hold is a matter of the two tables. -/
theorem held_of_infos {lists : Lists}
    (infos : ∀ side, lists.infos side = process.lists.infos side) :
    held { process with lists := lists } = process.held := by
  funext owner
  unfold held
  dsimp only
  rw [infos owner.1]
  rfl

/-- A process with other tables, whose entries are the same. -/
theorem Sound.of_infos {lists : Lists} (sound : process.Sound mode1) (safe : lists.Safe)
    (infos : ∀ side, lists.infos side = process.lists.infos side) :
    Sound mode1 { process with lists := lists } where
  safe := safe
  sizes side := by
    dsimp only
    rw [infos side]
    exact sound.sizes side
  handShakes := sound.handShakes.trans (congrArg List.length (infos .server)).symm
  mode1ConnCode := sound.mode1ConnCode
  keeps := by
    rw [held_of_infos infos]
    refine sound.keeps.imp fun owner _ _ content suits => ?_
    obtain ⟨⟨id, origin, parsed⟩, handShake⟩ := suits
    refine ⟨⟨id, origin, parsed.trans ?_⟩, handShake⟩
    unfold codeAt
    dsimp only
    rw [infos owner.1]
  numbered := sound.numbered.congr rfl rfl rfl
  proper := sound.proper

/-- A relay gets two connections that nobody holds any more. -/
theorem Sound.startRelay {serverSocket viewerSocket : Nat} {server viewer : Connection}
    {kickstart : List UInt8} (sound : process.Sound mode1)
    (safe : (forkRepeater process.lists code pid).Safe)
    (serverOpen : process.connections serverSocket = some server)
    (viewerOpen : process.connections viewerSocket = some viewer)
    (serverUnheld : ∀ owner, process.held owner ≠ some serverSocket)
    (viewerUnheld : ∀ owner, process.held owner ≠ some viewerSocket)
    (different : serverSocket ≠ viewerSocket)
    (proper : RelayStart.Proper mode1
      { code := code, server := some server, viewer := some viewer, kickstart := kickstart }) :
    (startRelay process serverSocket viewerSocket code kickstart pid).Ends mode1 pid
      ((process.loose \ {serverSocket}) \ {viewerSocket}) := by
  have forked := sound.of_infos safe (infos_forkRepeater process.lists code pid)
  have same := held_of_infos (infos_forkRepeater process.lists code pid)
  unfold Repeater.startRelay
  dsimp only
  split
  · next failed => exact ⟨forked, fun succeeded => (succeeded failed).elim⟩
  · rw [serverOpen, viewerOpen]
    refine ⟨?_, fun _ => ?_⟩
    · exact {
        safe := forked.safe
        sizes := forked.sizes
        handShakes := forked.handShakes
        mode1ConnCode := forked.mode1ConnCode
        keeps := by
          have kept := forked.keeps
          rw [same] at kept
          exact same ▸ (kept.update_other serverUnheld none).update_other viewerUnheld none
        numbered := forked.numbered.relay serverOpen viewerOpen different ⟨rfl, rfl⟩ rfl rfl rfl
        proper := fun relay member => by
          rcases List.mem_append.mp member with old | new
          · exact sound.proper relay old
          · rw [List.mem_singleton.mp new]
            exact proper }
    · change Custody.loose (held { process with lists := forkRepeater process.lists code pid })
        (Function.update (Function.update process.connections serverSocket none) viewerSocket
          none) = _
      rw [same, loose_close, loose_close]
      rfl

theorem Ends.send {loose : Set Nat} (ends : process.Ends mode1 pid loose)
    (events : List RepeaterEvent) : (process.send events).Ends mode1 pid loose :=
  ⟨ends.sound.send events, ends.loose⟩

/-- Two ends that wait under one code are joined. -/
theorem Sound.join {serverInd viewerInd serverSocket viewerSocket : Nat} {kickstart : List UInt8}
    (sound : process.Sound mode1) (named : code ≠ 0)
    (serverFound : findInfo code process.lists.servers = some serverInd)
    (viewerFound : findInfo code process.lists.viewers = some viewerInd)
    (waits : ∀ side, entry code (process.lists.infos side) = some false)
    (serverEnd : process.serverSockets.getD serverInd 0 = serverSocket)
    (viewerEnd : process.viewerSockets.getD viewerInd 0 = viewerSocket)
    (handShake : process.handShakes.getD serverInd [] = kickstart) (pid : Int32) :
    (Repeater.startRelay { process with lists := process.lists.activate code } serverSocket
      viewerSocket code kickstart pid).Ends mode1 pid process.loose := by
  subst serverEnd viewerEnd handShake
  have waiting (side : ConnectionFrom) : entry code (process.lists.infos side) ≠ some true := by
    rw [waits side]
    decide
  have present (side : ConnectionFrom) : entry code (process.lists.infos side) ≠ none := by
    rw [waits side]
    exact Option.some_ne_none false
  have serverHolds : process.held (.server, serverInd) =
      some (process.serverSockets.getD serverInd 0) :=
    heldAt_of_found serverFound (waits .server) named
  have viewerHolds : process.held (.viewer, viewerInd) =
      some (process.viewerSockets.getD viewerInd 0) :=
    heldAt_of_found viewerFound (waits .viewer) named
  obtain ⟨server, serverOpen, ⟨serverId, serverOrigin, serverCode⟩, handShake⟩ :=
    sound.keeps.stored _ _ serverHolds
  obtain ⟨viewer, viewerOpen, ⟨viewerId, viewerOrigin, viewerCode⟩, -⟩ :=
    sound.keeps.stored _ _ viewerHolds
  have different : process.serverSockets.getD serverInd 0 ≠
      process.viewerSockets.getD viewerInd 0 := by
    intro same
    rw [← same] at viewerHolds
    exact absurd (congrArg Prod.fst (sound.keeps.sole _ _ _ serverHolds viewerHolds))
      (ConnectionFrom.other_ne .viewer)
  have dropped : Keeps process.Suits (Function.update process.held (.viewer, viewerInd) none)
      process.connections := sound.keeps.drop _ fun _ _ _ suits => suits
  have serverHeld : Function.update process.held (.viewer, viewerInd) none (.server, serverInd) =
      some (process.serverSockets.getD serverInd 0) := by
    refine (Function.update_of_ne (fun pairs => ?_) _ _).trans serverHolds
    exact ConnectionFrom.other_ne .viewer (congrArg Prod.fst pairs)
  have proper : RelayStart.Proper mode1
      { code := code, server := some server, viewer := some viewer,
        kickstart := process.handShakes.getD serverInd [] } :=
    ⟨server, viewer, rfl, rfl, Or.inl
      ⟨⟨serverId, serverOrigin, serverCode.trans (entry_of_found serverFound).1⟩,
        ⟨viewerId, viewerOrigin, viewerCode.trans (entry_of_found viewerFound).1⟩,
        handShake rfl⟩⟩
  have freed : loose { process with lists := process.lists.activate code } =
      insert (process.serverSockets.getD serverInd 0)
        (insert (process.viewerSockets.getD viewerInd 0) process.loose) := by
    unfold loose
    rw [held_activate serverFound viewerFound]
    exact (dropped.loose_drop serverHeld).trans
      (congrArg _ (sound.keeps.loose_drop viewerHolds))
  have notServer : process.serverSockets.getD serverInd 0 ∉ process.loose :=
    fun free => free.2 _ serverHolds
  have notViewer : process.viewerSockets.getD viewerInd 0 ∉ process.loose :=
    fun free => free.2 _ viewerHolds
  -- the ends let both descriptors go, and the parent closes them
  have closed : process.loose = (loose { process with lists := process.lists.activate code } \
      {process.serverSockets.getD serverInd 0}) \ {process.viewerSockets.getD viewerInd 0} := by
    rw [freed]
    grind
  rw [closed]
  refine (sound.activate named serverFound viewerFound (waiting .server)).startRelay
    (safe_join pid sound.safe named present (waiting .server)) serverOpen viewerOpen ?_ ?_
    different proper
  · rw [held_activate serverFound viewerFound]
    exact dropped.not_held_of_drop serverHeld
  · rw [held_activate serverFound viewerFound]
    intro owner holds
    by_cases same : owner = (.server, serverInd)
    · rw [same, Function.update_self] at holds
      cases holds
    · rw [Function.update_of_ne same] at holds
      exact sound.keeps.not_held_of_drop viewerHolds owner holds

end Process

end Repeater
