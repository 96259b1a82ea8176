import MegaVnc.Repeater.InventedCodes
import MegaVnc.Repeater.Ownership

/-! # Sessions are kept apart

However the operating system reuses descriptors, a relay joins a server and a viewer
that sent the same code, or a viewer and the server it asked for, and no connection
gets into two relays. A descriptor stays open for good only when a viewer of Mode 1
finds one of the two tables full.
-/

namespace Repeater

open Custody Slots Transition

namespace Process

variable {process : Process} {mode1 : Mode1} {socket index : Nat} {connection : Connection}
  {connectionFrom : ConnectionFrom} {code : Int64} {peerIp : AddrParts} {now : Int64}
  {next : List RepeaterInfo} {pid : Int32}

/-! ### New connections -/

/-- The latest connection, which no entry has yet, next to what was loose before. -/
structure Arrived (process : Process) (connectionFrom : ConnectionFrom) (socket : Nat)
    (id : List Char) (connection : Connection) (before : Set Nat) : Prop where
  present : process.connections socket = some connection
  unheld : ∀ owner, process.held owner ≠ some socket
  origin : connection.origin = .accepted connectionFrom (some id)
  handShake : connection.handShake = []
  number : connection.number + 1 = process.arrivals
  loose : process.loose = insert socket before
  apart : socket ∉ before

/-- A connection that is refused leaves nothing behind. -/
theorem Sound.refuse {before : Set Nat} (sound : process.Sound mode1)
    (unheld : ∀ owner, process.held owner ≠ some socket)
    (loose : process.loose = insert socket before) (apart : socket ∉ before) (pid : Int32) :
    (process.closeSocket socket).Ends mode1 pid before where
  sound := sound.closeSocket unheld
  loose _ := by
    refine loose_close.trans ?_
    change process.loose \ {socket} = before
    rw [loose]
    grind

/-- A new entry of a positive code waits, and so does the other end when there is one. -/
theorem Sound.place_waits (sound : process.Sound mode1) (positive : 0 < code)
    (added : addInfo code peerIp now (process.lists.infos connectionFrom) = some (index, next))
    (absent : entry code (process.lists.infos connectionFrom) = none)
    (present : entry code (process.lists.infos connectionFrom.other) ≠ none)
    (side : ConnectionFrom) :
    entry code ((process.place connectionFrom next index socket).lists.infos side) =
      some false := by
  have named : code ≠ 0 := by
    rintro rfl
    exact absurd positive (by decide)
  rw [lists_place]
  rcases side.eq_or_other connectionFrom with rfl | rfl
  · rw [infos_put_self, entry_addInfo added absent named, if_pos rfl]
  · rw [infos_put_other]
    obtain ⟨active, held⟩ := Option.ne_none_iff_exists'.mp present
    cases active with
    | false => exact held
    | true =>
        have back := sound.safe.both code positive connectionFrom.other held
        have twice : connectionFrom.other.other = connectionFrom := by cases connectionFrom <;> rfl
        rw [twice, absent] at back
        cases back

variable {settings : Settings} {accepted : Accepted} {id : List Char} {before : Set Nat}

/-- Only the latest connection was loose, and it gets an entry. -/
theorem loose_place (held : (process.place connectionFrom next index socket).held =
      Function.update process.held (connectionFrom, index) (some socket))
    (free : process.held (connectionFrom, index) = none)
    (loose : process.loose = insert socket before) (apart : socket ∉ before) :
    (process.place connectionFrom next index socket).loose = before := by
  unfold Process.loose at loose ⊢
  rw [held, connections_place, loose_take free, loose]
  grind

/-- A viewer of Mode 2 gets an entry or a relay, or is closed. -/
theorem Sound.acceptMode2Viewer (sound : process.Sound mode1) (positive : 0 < code)
    (arrived : process.Arrived .viewer accepted.socket id connection before)
    (sent : parseId id = code) (absent : entry code process.lists.viewers = none) :
    (acceptMode2Viewer settings process now accepted code).Ends mode1 accepted.pid before := by
  have named : code ≠ 0 := by
    rintro rfl
    exact absurd positive (by decide)
  unfold Repeater.acceptMode2Viewer addViewerList
  cases added : addInfo code accepted.peerIp now process.lists.viewers with
  | none => exact sound.refuse arrived.unheld arrived.loose arrived.apart _
  | some viewer =>
      obtain ⟨viewerInd, viewers⟩ := viewer
      obtain ⟨placed, held⟩ : (process.place .viewer viewers viewerInd accepted.socket).Sound
          mode1 ∧ _ :=
        sound.place named added absent arrived.unheld arrived.present
          ⟨id, arrived.origin, sent⟩ fun isServer => by cases isServer
      have loose := loose_place held (heldAt_of_added added) arrived.loose arrived.apart
      have noted := placed.send [connectionEvent settings.config now .viewerConnect viewerInd code
        connMode2 accepted.peerIp]
      dsimp only [Option.map_some]
      split
      · exact ⟨noted, fun _ => loose⟩
      · next serverInd found =>
          have waits : ∀ side, entry code ((process.place .viewer viewers viewerInd
              accepted.socket).lists.infos side) = some false :=
            sound.place_waits positive added absent (entry_ne_none_of_found found)
          have own : (process.viewerSockets.set viewerInd accepted.socket).getD viewerInd 0 =
              accepted.socket :=
            getD_set_self (sound.sizes .viewer ▸ lt_of_added added)
          have viewerFound : findInfo code viewers = some viewerInd :=
            findInfo_addInfo (sound.safe.apart .viewer) added absent named
          have joined := noted.join named found viewerFound waits rfl own rfl accepted.pid
          exact (Ends.send ⟨joined.sound, fun forked => (joined.loose forked).trans loose⟩ _ :)

/-- A server of Mode 2 keeps the process sound. -/
theorem Sound.acceptMode2Server (sound : process.Sound mode1) (positive : 0 < code)
    (arrived : process.Arrived .server accepted.socket id connection before)
    (sent : parseId id = code) (absent : entry code process.lists.servers = none) :
    (acceptMode2Server settings process now accepted code).Ends mode1 accepted.pid before := by
  have named : code ≠ 0 := by
    rintro rfl
    exact absurd positive (by decide)
  unfold Repeater.acceptMode2Server addServerList
  cases added : addInfo code accepted.peerIp now process.lists.servers with
  | none => exact sound.refuse arrived.unheld arrived.loose arrived.apart _
  | some server =>
      obtain ⟨serverInd, servers⟩ := server
      have cleared := sound.clearHandShake (heldAt_of_added added)
      have inside : serverInd < process.handShakes.length :=
        sound.handShakes ▸ lt_of_added added
      have empty : (process.handShakes.set serverInd []).getD serverInd [] = [] :=
        getD_set_self inside
      obtain ⟨placed, held⟩ : (Process.place { process with
            handShakes := process.handShakes.set serverInd [] } .server servers serverInd
              accepted.socket).Sound mode1 ∧ _ :=
        cleared.place named added absent arrived.unheld arrived.present
          ⟨id, arrived.origin, sent⟩ fun _ => empty.trans arrived.handShake.symm
      have loose := loose_place held (heldAt_of_added added) arrived.loose arrived.apart
      have noted := placed.send [connectionEvent settings.config now .serverConnect serverInd code
        connMode2 (peerIpAt servers serverInd)]
      dsimp only [Option.map_some]
      split
      · refine ⟨noted.readPeerHandShake ?_ (held.symm ▸ Function.update_self _ _ _), fun _ => ?_⟩
        · exact (List.length_set ▸ inside :)
        · exact (loose_change _).trans loose
      · next viewerInd found =>
          have waits : ∀ side, entry code ((process.place .server servers serverInd
              accepted.socket).lists.infos side) = some false :=
            sound.place_waits positive added absent (entry_ne_none_of_found found)
          have own : (process.serverSockets.set serverInd accepted.socket).getD serverInd 0 =
              accepted.socket :=
            getD_set_self (sound.sizes .server ▸ lt_of_added added)
          have serverFound : findInfo code servers = some serverInd :=
            findInfo_addInfo (sound.safe.apart .server) added absent named
          have joined := noted.join named serverFound found waits own rfl empty accepted.pid
          exact (Ends.send ⟨joined.sound, fun forked => (joined.loose forked).trans loose⟩ _ :)

/-- An invented code keeps the state sound. -/
theorem Sound.inventCode (sound : process.Sound mode1) :
    Sound mode1 { process with mode1ConnCode := nextMode1ConnCode process.mode1ConnCode } where
  safe := sound.safe
  sizes := sound.sizes
  handShakes := sound.handShakes
  mode1ConnCode :=
    have bounds := nextMode1ConnCode_bounds sound.mode1ConnCode.1 sound.mode1ConnCode.2
    ⟨bounds.1, Int64.le_of_lt bounds.2⟩
  keeps := sound.keeps
  numbered := sound.numbered.congr rfl rfl rfl
  proper := sound.proper

/-- A server is connected only when its address is allowed. -/
theorem openConnectionToVncServer_eq_some {server : Nat} {serverIp : AddrParts}
    (connected : openConnectionToVncServer mode1 accepted = some (server, serverIp)) :
    accepted.server = some server ∧
      (mode1.requireListedServer = true → mode1.Allows serverIp) := by
  unfold openConnectionToVncServer at connected
  split at connected
  · cases connected
  · split at connected
    · cases connected
    · next resolved allowed =>
        simp only [Option.map_eq_some_iff, Prod.mk.injEq] at connected
        obtain ⟨socket, opened, rfl, rfl⟩ := connected
        refine ⟨opened, fun required => (isServerAddressAllowed_iff mode1 _).mp ?_⟩
        by_contra denied
        exact allowed ⟨required, denied⟩

/-- Nobody takes the descriptor of an entry that is active at once. -/
theorem loose_placeActive {infos : List RepeaterInfo}
    (held : (process.place connectionFrom infos index socket).held = process.held) :
    (process.place connectionFrom infos index socket).loose = process.loose := by
  unfold loose
  rw [held, connections_place]

/-- A viewer and the server that was opened for it get into the tables, as far as
these have room. -/
theorem Sound.addMode1Session {serverSocket : Nat} {serverIp : AddrParts}
    {server viewer : Connection} (sound : process.Sound mode1) (negative : code < 0)
    (fresh : ∀ side, entry code (process.lists.infos side) = none)
    (serverOpen : process.connections serverSocket = some server)
    (viewerOpen : process.connections accepted.socket = some viewer)
    (serverUnheld : ∀ owner, process.held owner ≠ some serverSocket)
    (viewerUnheld : ∀ owner, process.held owner ≠ some accepted.socket)
    (different : serverSocket ≠ accepted.socket)
    (proper : RelayStart.Proper mode1
      { code := code, server := some server, viewer := some viewer, kickstart := [] })
    (loose : process.loose = insert serverSocket (insert accepted.socket before))
    (apart : serverSocket ∉ before ∧ accepted.socket ∉ before) :
    (addMode1Session settings process now accepted serverSocket serverIp code).Ends mode1
      accepted.pid (before ∪ process.lists.leftOpen serverSocket accepted.socket) := by
  have named : code ≠ 0 := by
    rintro rfl
    exact absurd negative (by decide)
  unfold Repeater.addMode1Session addViewerList addServerList
  cases viewerAdded : addInfo code accepted.peerIp now process.lists.viewers with
  | none =>
      have noViewer := addInfo_eq_none.mp viewerAdded
      cases serverAdded : addInfo code serverIp now process.lists.servers with
      | none =>
          have noServer := addInfo_eq_none.mp serverAdded
          dsimp only [Option.map_none]
          rw [serverAdded, leftOpen_full noViewer noServer, Set.union_empty]
          refine ((sound.closeSocket serverUnheld).refuse viewerUnheld ?_ apart.2 _ :)
          refine loose_close.trans ?_
          change process.loose \ {serverSocket} = _
          rw [loose]
          grind
      | some added =>
          obtain ⟨serverInd, servers⟩ := added
          obtain ⟨placed, held⟩ : (process.place .server (activateInfo code servers) serverInd
              serverSocket).Sound mode1 ∧ _ :=
            sound.placeActive negative serverAdded (fresh .server)
          dsimp only [Option.map_none]
          rw [serverAdded, leftOpen_server noViewer (hasRoom_of_added serverAdded),
            Set.union_singleton]
          refine (placed.refuse (held ▸ viewerUnheld) ?_ ?_ _ :)
          · rw [loose_placeActive held, loose, Set.insert_comm]
          · exact fun inside => inside.elim different.symm apart.2
  | some added =>
      have viewerRoom := hasRoom_of_added viewerAdded
      obtain ⟨viewerInd, viewers⟩ := added
      obtain ⟨viewerPlaced, viewerHeld⟩ : (process.place .viewer (activateInfo code viewers)
          viewerInd accepted.socket).Sound mode1 ∧ _ :=
        sound.placeActive negative viewerAdded (fresh .viewer)
      cases serverAdded : addInfo code serverIp now process.lists.servers with
      | none =>
          have noServer := addInfo_eq_none.mp serverAdded
          dsimp only [Option.map_some, setViewerActive]
          rw [serverAdded, leftOpen_viewer viewerRoom noServer, Set.union_singleton]
          refine (viewerPlaced.refuse (viewerHeld ▸ serverUnheld) ?_ ?_ _ :)
          · rw [loose_placeActive viewerHeld, loose]
          · exact fun inside => inside.elim different apart.1
      | some added =>
          have serverRoom := hasRoom_of_added serverAdded
          obtain ⟨serverInd, servers⟩ := added
          obtain ⟨placed, held⟩ : (Process.place (process.place .viewer (activateInfo code viewers)
              viewerInd accepted.socket) .server (activateInfo code servers) serverInd
                serverSocket).Sound mode1 ∧ _ :=
            viewerPlaced.placeActive negative serverAdded (fresh .server)
          have unheld := held.trans viewerHeld
          have closed : before = (Process.loose (Process.place (process.place .viewer
              (activateInfo code viewers) viewerInd accepted.socket) .server
                (activateInfo code servers) serverInd serverSocket) \ {serverSocket}) \
                  {accepted.socket} := by
            rw [loose_placeActive held, loose_placeActive viewerHeld, loose]
            grind
          have unready : entry code (process.lists.infos .viewer) ≠ some true := by
            rw [fresh .viewer]
            exact (Option.some_ne_none true).symm
          dsimp only [Option.map_some, setViewerActive]
          rw [serverAdded, leftOpen_room viewerRoom serverRoom, Set.union_empty, closed]
          refine Ends.send ?_ _
          refine placed.startRelay ?_ serverOpen viewerOpen (unheld ▸ serverUnheld)
            (unheld ▸ viewerUnheld) different proper
          refine safe_forkRepeater accepted.pid placed.safe named (fun side => ?_)
            (sound.safe.idle named unready)
          cases side with
          | viewer => exact entry_addInfo_activateInfo viewerAdded (fresh .viewer) named
          | server => exact entry_addInfo_activateInfo serverAdded (fresh .server) named

/-- The descriptor that stays open when an id asks for Mode 1: there is one when the
server is reached and one table only is full. -/
def leaksMode1 (settings : Settings) (process : Process) (accepted : Accepted) (id : List Char) :
    Set Nat :=
  match parseHostAndPort id with
  | none => ∅
  | some (_, port) =>
      if settings.mode1.allowedMode1ServerPort ≠ 0 ∧
          port ≠ settings.mode1.allowedMode1ServerPort then ∅
      else
        match openConnectionToVncServer settings.mode1 accepted with
        | none => ∅
        | some (server, _) => process.lists.leftOpen server accepted.socket

/-- The descriptors that a call leaves open without an entry. -/
def leaks (settings : Settings) (process : Process) : ProcessCall → Set Nat
  | .acceptConnection .viewer accepted =>
      if ¬ accepted.versionWritten then ∅
      else
        match accepted.id with
        | none => ∅
        | some id =>
            if checkIdCode id then ∅
            else if settings.allowedModes &&& connMode1 > 0 then
              leaksMode1 settings process accepted id
            else ∅
  | _ => ∅

/-- A viewer of Mode 1 leaves a descriptor open only when one table is full. -/
theorem Sound.acceptMode1 (sound : process.Sound settings.mode1)
    (arrived : process.Arrived .viewer accepted.socket id connection before)
    (unused : ∀ server ∈ accepted.server, process.connections server = none)
    (fresh : ∀ side, entry (nextMode1ConnCode process.mode1ConnCode) (process.lists.infos side) =
      none) : (acceptMode1 settings process now accepted .viewer id).Ends settings.mode1
        accepted.pid (before ∪ leaksMode1 settings process accepted id) := by
  have refused := sound.refuse arrived.unheld arrived.loose arrived.apart accepted.pid
  rw [← Set.union_empty before] at refused
  unfold Repeater.acceptMode1 leaksMode1
  cases parsed : parseHostAndPort id with
  | none => exact refused
  | some hostAndPort =>
      obtain ⟨host, port⟩ := hostAndPort
      by_cases otherPort : settings.mode1.allowedMode1ServerPort ≠ 0 ∧
          port ≠ settings.mode1.allowedMode1ServerPort
      · simp only [if_pos otherPort]
        exact refused
      · simp only [if_neg otherPort]
        unfold Repeater.acceptMode1Viewer
        cases connected : openConnectionToVncServer settings.mode1 accepted with
        | none => exact refused
        | some opened =>
            obtain ⟨server, serverIp⟩ := opened
            obtain ⟨given, listed⟩ := openConnectionToVncServer_eq_some connected
            have free := unused server given
            have unheld := sound.keeps.not_held free
            have different : server ≠ accepted.socket := by
              rintro rfl
              rw [arrived.present] at free
              cases free
            have negative :=
              (nextMode1ConnCode_bounds sound.mode1ConnCode.1 sound.mode1ConnCode.2).2
            have invented := (sound.openSocket free (.opened id serverIp)).inventCode
            have loose : Process.loose (process.openSocket server (.opened id serverIp)) =
                insert server (insert accepted.socket before) :=
              (loose_open unheld _).trans (congrArg _ arrived.loose)
            have apart : server ∉ before := by
              intro inside
              have loose : server ∈ process.loose := arrived.loose ▸ Or.inr inside
              exact loose.1 free
            have allowed : settings.mode1.allowedMode1ServerPort = 0 ∨
                port = settings.mode1.allowedMode1ServerPort := by
              by_contra neither
              exact otherPort (not_or.mp neither)
            exact invented.addMode1Session negative fresh (Function.update_self _ _ _)
              ((Function.update_of_ne different.symm _ _).trans arrived.present) unheld
              arrived.unheld different
              ⟨_, connection, rfl, rfl, Or.inr ⟨rfl, arrived.number.symm, id, host, port, serverIp,
                arrived.origin, rfl, parsed, allowed, listed⟩⟩ loose ⟨apart, arrived.apart⟩

/-- An id code leaves no descriptor open. -/
theorem Sound.acceptMode2 (sound : process.Sound mode1)
    (arrived : process.Arrived connectionFrom accepted.socket id connection before) :
    (acceptMode2 settings process now accepted connectionFrom id).Ends mode1 accepted.pid
      before := by
  have refused := sound.refuse arrived.unheld arrived.loose arrived.apart accepted.pid
  unfold Repeater.acceptMode2
  dsimp only
  split
  · exact refused
  · next parsed =>
      split
      · exact refused
      · next single =>
          have absent : findDuplicateIdIndex process.lists connectionFrom (parseId id) = none :=
            not_not.mp single
          split
          · exact refused
          · cases connectionFrom with
            | viewer =>
                exact sound.acceptMode2Viewer (parseId_pos parsed) arrived rfl
                  (findInfo_eq_none.mp absent)
            | server =>
                exact sound.acceptMode2Server (parseId_pos parsed) arrived rfl
                  (findInfo_eq_none.mp absent)

/-- Mode 1 is refused to servers. -/
theorem acceptMode1_server :
    acceptMode1 settings process now accepted .server id = process.closeSocket accepted.socket := by
  unfold Repeater.acceptMode1
  split
  · rfl
  · split <;> rfl

/-- An accepted connection leaves open what is listed. -/
theorem Sound.acceptSocket (sound : process.Sound settings.mode1)
    (legal : accepted.Legal process)
    (fresh : (ProcessCall.acceptConnection connectionFrom accepted).Fresh process) :
    (acceptSocket settings process now accepted connectionFrom).Ends settings.mode1 accepted.pid
      (process.loose ∪ process.leaks settings (.acceptConnection connectionFrom accepted)) := by
  have unheld := sound.keeps.not_held legal.unused
  have opened := sound.openSocket legal.unused (.accepted connectionFrom accepted.id)
  have loose : Process.loose (process.openSocket accepted.socket
      (.accepted connectionFrom accepted.id)) = insert accepted.socket process.loose :=
    loose_open unheld _
  have apart : accepted.socket ∉ process.loose := fun inside => inside.1 legal.unused
  have refused := opened.refuse unheld loose apart accepted.pid
  rw [← Set.union_empty process.loose] at refused
  cases given : accepted.id with
  | none =>
      rw [given] at refused
      cases connectionFrom with
      | server => simpa only [Repeater.acceptSocket, leaks, given, ite_self] using refused
      | viewer => simpa only [Repeater.acceptSocket, leaks, given, ite_self] using refused
  | some id =>
      rw [given] at opened loose refused
      have arrived : (process.openSocket accepted.socket
          (.accepted connectionFrom (some id))).Arrived connectionFrom accepted.socket id _
            process.loose :=
        ⟨Function.update_self _ _ _, unheld, rfl, rfl, rfl, loose, apart⟩
      have mode2 : (Repeater.acceptMode2 settings _ now accepted connectionFrom id).Ends
          settings.mode1 _ _ := opened.acceptMode2 arrived
      rw [← Set.union_empty process.loose] at mode2
      cases connectionFrom with
      | server =>
          simp only [Repeater.acceptSocket, leaks, given, reduceCtorEq, false_and, ↓reduceIte,
            acceptMode1_server, ite_self]
          split
          · split
            · exact mode2
            · exact refused
          · exact refused
      | viewer =>
          simp only [Repeater.acceptSocket, leaks, given, true_and]
          by_cases written : accepted.versionWritten = true
          · simp only [written, not_true_eq_false, ↓reduceIte]
            by_cases isId : checkIdCode id = true
            · simp only [isId, ↓reduceIte]
              split
              · exact mode2
              · exact refused
            · simp only [isId, Bool.false_eq_true, ↓reduceIte]
              by_cases allowed : settings.allowedModes &&& connMode1 > 0
              · simp only [allowed, ↓reduceIte]
                refine opened.acceptMode1 arrived (fun server member => ?_) fun side => ?_
                · obtain ⟨unused, different⟩ := legal.server server member
                  exact (Function.update_of_ne different _ _).trans unused
                · exact findInfo_eq_none.mp
                    (fresh id given (Bool.eq_false_of_not_eq_true isId) side)
              · simp only [allowed, ↓reduceIte]
                exact refused
          · simp only [written, Bool.false_eq_true, not_false_eq_true, ↓reduceIte]
            exact refused

/-! ### Checks and ends -/

/-- Removing an entry lets one descriptor go. -/
theorem held_removeInfo (found : findInfo code (process.lists.infos connectionFrom) = some index) :
    Process.held { process with
      lists := process.lists.put connectionFrom
        (removeInfo code (process.lists.infos connectionFrom)) } =
      Function.update process.held (connectionFrom, index) none := by
  apply held_eq_update
  · dsimp only
    rw [infos_put_self]
    exact heldAt_removeInfo found
  · dsimp only
    rw [infos_put_other]
    rfl

/-- An entry that waits is removed, with its descriptor. -/
theorem Sound.removeWaiting (sound : process.Sound mode1)
    (holds : process.held (connectionFrom, index) = some socket) (pid : Int32) :
    (Process.closeSocket { process with
      lists := process.lists.put connectionFrom
        (removeInfo ((process.lists.infos connectionFrom).getD index .zero).code
          (process.lists.infos connectionFrom)) } socket).Ends mode1 pid process.loose := by
  obtain ⟨named, inactive, -⟩ := waits_of_heldAt holds
  have found := found_of_waits (sound.safe.apart connectionFrom) named
  have waits : entry ((process.lists.infos connectionFrom).getD index .zero).code
      (process.lists.infos connectionFrom) ≠ some true := by
    rw [(entry_of_found found).2, inactive]
    decide
  have held := held_removeInfo found
  have apart : socket ∉ process.loose := fun inside => inside.2 _ holds
  have removed : Sound mode1 { process with
      lists := process.lists.put connectionFrom
        (removeInfo ((process.lists.infos connectionFrom).getD index .zero).code
          (process.lists.infos connectionFrom)) } := by
    refine ⟨safe_removeInfo sound.safe named waits, fun side => ?_, ?_, sound.mode1ConnCode, ?_, ?_,
      sound.proper⟩
    · dsimp only
      rcases side.eq_or_other connectionFrom with rfl | rfl
      · rw [infos_put_self, removeInfo, length_updateFirst]
        exact sound.sizes _
      · rw [infos_put_other]
        exact sound.sizes _
    · cases connectionFrom with
      | viewer => exact sound.handShakes
      | server => exact sound.handShakes.trans length_updateFirst.symm
    · rw [held]
      refine sound.keeps.drop _ fun owner different content suits => ?_
      obtain ⟨side, position⟩ := owner
      obtain ⟨⟨id, origin, parsed⟩, handShake⟩ := suits
      refine ⟨⟨id, origin, parsed.trans ?_⟩, handShake⟩
      unfold codeAt
      dsimp only
      rcases side.eq_or_other connectionFrom with rfl | rfl
      · have other : position ≠ index := fun same => different (congrArg _ same)
        rw [infos_put_self, removeInfo, getD_updateFirst found, if_neg other]
      · rw [infos_put_other]
    · exact sound.numbered.congr rfl rfl rfl
  refine removed.refuse ?_ ?_ apart pid
  · rw [held]
    exact sound.keeps.not_held_of_drop holds
  · unfold loose
    rw [held]
    exact sound.keeps.loose_drop holds

/-- What the remover does to the table of an entry that it removes. -/
theorem connectionRemover_lists {config : Config} {lists : Lists} {peerDisconnected : Bool}
    (removes : isExistingConnectionInactive ((lists.infos connectionFrom).getD index .zero).active
        (((lists.infos connectionFrom).getD index .zero).code ≠ 0) ∧
      (isConnectionTooOld now ((lists.infos connectionFrom).getD index .zero).timeStamp ∨
        peerDisconnected)) :
    (connectionRemover config lists now connectionFrom index peerDisconnected).1 =
      lists.put connectionFrom (removeInfo ((lists.infos connectionFrom).getD index .zero).code
        (lists.infos connectionFrom)) := by
  unfold connectionRemover
  cases connectionFrom with
  | viewer => exact congrArg Prod.fst (if_pos removes)
  | server => exact congrArg Prod.fst (if_pos removes)

/-- An entry that waits holds its socket. -/
theorem held_of_waits
    (waits : isExistingConnectionInactive
      ((process.lists.infos connectionFrom).getD index .zero).active
      (((process.lists.infos connectionFrom).getD index .zero).code ≠ 0) = true) :
    process.held (connectionFrom, index) =
      some ((process.sockets connectionFrom).getD index 0) := by
  exact if_pos (isExistingConnectionInactive_eq_true.mp waits)

/-- The remover closes the descriptor of the entry it removes. -/
theorem Sound.removeSocket (sound : process.Sound mode1) (result : RecvResult) (pid : Int32) :
    (removeSocket settings process now connectionFrom index result).Ends mode1 pid
      process.loose := by
  unfold Repeater.removeSocket
  dsimp only
  split
  · next waits =>
      have holds := held_of_waits waits
      split
      · next gone =>
          rw [connectionRemover_lists ⟨waits, gone⟩]
          exact (sound.removeWaiting holds pid).send _
      · exact {
          sound := {
            safe := sound.safe
            sizes := sound.sizes
            handShakes := sound.handShakes
            mode1ConnCode := sound.mode1ConnCode
            keeps := sound.keeps.change _ (fun _ _ _ suits => suits) fun _ _ _ _ _ suits => suits
            numbered := sound.numbered.readFrom _ fun _ => rfl
            proper := sound.proper }
          loose := fun _ => loose_change _ }
  · exact ⟨sound, fun _ => rfl⟩

/-- A code whose ends are both active is removed; nobody held a descriptor for it. -/
theorem Sound.removeSession (sound : process.Sound mode1) (named : code ≠ 0)
    (active : ∀ side, entry code (process.lists.infos side) = some true)
    (idle : ∀ proc ∈ process.lists.repeaterProcs, proc.code ≠ code) (pid : Int32) :
    Ends mode1 pid process.loose { process with lists := process.lists.remove code } := by
  have found (side : ConnectionFrom) :
      ∃ index, findInfo code (process.lists.infos side) = some index := by
    apply Option.ne_none_iff_exists'.mp
    intro missing
    rw [findInfo_eq_none, active side] at missing
    cases missing
  have held : Process.held { process with lists := process.lists.remove code } = process.held := by
    funext owner
    obtain ⟨index, there⟩ := found owner.1
    unfold Process.held
    dsimp only
    rw [infos_remove, heldAt_removeInfo there]
    exact congrFun
      (Function.update_eq_self_iff.mpr (heldAt_of_active there (active owner.1)).symm) owner.2
  refine ⟨⟨safe_remove sound.safe named idle, fun side => ?_, ?_, sound.mode1ConnCode, ?_, ?_,
    sound.proper⟩, fun _ => congrArg (Custody.loose · process.connections) held⟩
  · dsimp only
    rw [infos_remove, removeInfo, length_updateFirst]
    exact sound.sizes side
  · exact sound.handShakes.trans length_updateFirst.symm
  · rw [held]
    refine sound.keeps.imp fun owner taken holds content suits => ?_
    obtain ⟨⟨id, origin, parsed⟩, handShake⟩ := suits
    refine ⟨⟨id, origin, parsed.trans ?_⟩, handShake⟩
    obtain ⟨index, there⟩ := found owner.1
    have other : owner.2 ≠ index := by
      intro same
      rw [Process.held, same, heldAt_of_active there (active owner.1)] at holds
      cases holds
    unfold codeAt
    dsimp only
    rw [infos_remove, removeInfo, getD_updateFirst there, if_neg other]
  · exact sound.numbered.congr rfl rfl rfl

/-- Cleaning up after a relay has no descriptor to close. -/
theorem Sound.cleanUpSockets (sound : process.Sound mode1) (exitCode : Int32) (child : 0 < pid) :
    (cleanUpSockets settings process now exitCode pid).Ends mode1 pid process.loose := by
  have unchanged : (process.send []).Ends mode1 pid process.loose :=
    ⟨sound.send [], fun _ => rfl⟩
  unfold Repeater.cleanUpSockets cleanUpAfterRepeaterProcExit
  dsimp only
  split
  · exact unchanged
  · next proc found =>
      have member : proc ∈ process.lists.repeaterProcs := List.mem_of_find?_eq_some found
      have own : proc.pid = pid := by simpa using List.find?_some found
      have busy : proc ≠ .zero := by
        rintro rfl
        rw [← own] at child
        exact absurd child (by decide)
      obtain ⟨named, active⟩ := sound.safe.running proc member busy
      split
      · have same (side : ConnectionFrom) :
            (removeRepeaterProcList process.lists pid).infos side = process.lists.infos side := by
          cases side <;> rfl
        have freed := sound.of_infos (safe_removeRepeaterProcList sound.safe pid) same
        have loose : Process.loose { process with
            lists := removeRepeaterProcList process.lists pid } = process.loose :=
          congrArg (Custody.loose · process.connections) (held_of_infos same)
        split
        · have removed := freed.removeSession named (fun side => (same side).symm ▸ active side)
            (gone_removeRepeaterProcList sound.safe.procs_apart found named) pid
          exact (Ends.send ⟨removed.sound, fun forks => (removed.loose forks).trans loose⟩ _ :)
        · exact (Ends.send ⟨freed, fun _ => loose⟩ _ :)
      · exact unchanged

/-! ### Runs -/

/-- The start is sound. -/
theorem sound_start (config : Config) : (Process.start config).Sound mode1 where
  safe := safe_cleanLists config.maxSessions
  sizes side := by
    cases side <;> exact List.length_replicate.trans List.length_replicate.symm
  handShakes := List.length_replicate.trans List.length_replicate.symm
  mode1ConnCode := (by decide : minInventedConnCode ≤ (0 : Int64) ∧ (0 : Int64) ≤ 0)
  keeps := by
    have free (owner : ConnectionFrom × Nat) : (Process.start config).held owner = none := by
      obtain ⟨side, position⟩ := owner
      have zero : (List.replicate config.maxSessions RepeaterInfo.zero).getD position .zero =
          .zero := by
        rw [List.getD_eq_getElem?_getD, List.getElem?_replicate]
        split <;> rfl
      refine heldAt_eq_none (Or.inl ?_)
      cases side <;> exact congrArg _ zero
    refine ⟨fun owner socket holds => ?_, fun first second socket holds _ => ?_⟩
    · rw [free] at holds
      cases holds
    · rw [free] at holds
      cases holds
  numbered := by
    refine ⟨?_, ?_, ?_, List.nodup_nil, ?_⟩
    · intro socket connection present
      cases present
    · intro first second one two present
      cases present
    · intro number member
      cases member
    · intro socket connection present
      cases present
  proper relay member := by cases member

/-- A call keeps the state sound, and leaves open what is listed. -/
theorem Sound.step (sound : process.Sound settings.mode1) (call : Int64 × ProcessCall)
    (legal : call.2.Legal process) (fresh : call.2.Fresh process) :
    (process.step settings call).Sound settings.mode1 ∧
      (call.2.Forks → (process.step settings call).loose =
        process.loose ∪ process.leaks settings call.2) := by
  obtain ⟨now, called⟩ := call
  cases called with
  | acceptConnection connectionFrom accepted =>
      have ends : (Repeater.acceptSocket settings process now accepted connectionFrom).Ends
          settings.mode1 _ _ := sound.acceptSocket legal fresh
      exact ⟨ends.sound, ends.loose⟩
  | connectionRemover connectionFrom index result =>
      have ends : (Repeater.removeSocket settings process now connectionFrom index result).Ends
          settings.mode1 0 _ := sound.removeSocket result 0
      exact ⟨ends.sound, fun _ => (ends.loose (by decide)).trans (Set.union_empty _).symm⟩
  | cleanUpAfterRepeaterProcExit exitCode pid =>
      have ends : (Repeater.cleanUpSockets settings process now exitCode pid).Ends
          settings.mode1 pid _ := sound.cleanUpSockets exitCode legal
      have child : pid ≠ -1 := by
        rintro rfl
        exact (by decide : ¬ (0 : Int32) < -1) legal
      exact ⟨ends.sound, fun _ => (ends.loose child).trans (Set.union_empty _).symm⟩

variable {calls : List (Int64 × ProcessCall)}

/-- Both modes are allowed, and a table has one entry. -/
def oneSession : Settings where
  config := { Config.shipped with maxSessions := 1 }
  allowedModes := 3
  mode1 :=
    { allowedMode1ServerPort := 0
      requireListedServer := false
      srvListAllow := []
      srvListDeny := [] }

/-- A session takes place, and its server comes back on the same descriptor. -/
def serverBack : List (Int64 × ProcessCall) :=
  [(10, serverOfSeven), (11, viewerOf ['I', 'D', ':', '7'] none),
    (12, .cleanUpAfterRepeaterProcExit 1 100), (13, serverOfSeven)]

/-- While the server table is full, a viewer asks for a host. -/
def viewerAsks : List (Int64 × ProcessCall) :=
  [(10, serverOfSeven), (11, viewerOf ['h', 'o', 's', 't'] (some 6))]

/-- Every run keeps the state sound as long as invented codes are new. -/
theorem sound_run (legal : Along (Process.step settings)
      (fun process call => call.2.Legal process) (.start settings.config) calls)
    (fresh : calls.length ≤ 1000000 ∨ Along (Process.step settings)
      (fun process call => call.2.Fresh process) (.start settings.config) calls) :
    (run (Process.step settings) (.start settings.config) calls).Sound settings.mode1 := by
  have along := along_and.mpr ⟨legal, fresh.elim (fresh_run settings) id⟩
  exact along.run_invariant (Sound settings.mode1)
    (fun process call allowed sound => (sound.step call allowed.1 allowed.2).1)
    (sound_start settings.config)

/-- However connections arrive and descriptors are used again, as long as the codes that
Mode 1 invents are new: a relay joins a server and a viewer that sent the same code, or a
viewer and the server it asked for; no connection is given to two relays; and an entry
that waits has the open connection that sent its code, on a descriptor of its own. -/
theorem sessions_apart (legal : Along (Process.step settings)
      (fun process call => call.2.Legal process) (.start settings.config) calls)
    (fresh : calls.length ≤ 1000000 ∨ Along (Process.step settings)
      (fun process call => call.2.Fresh process) (.start settings.config) calls) :
    let process := run (Process.step settings) (.start settings.config) calls
    (∀ relay ∈ process.relays, relay.Proper settings.mode1) ∧ process.relayed.Nodup ∧
      ∀ owner socket, process.held owner = some socket →
        (∃ connection, process.connections socket = some connection ∧
          process.Suits owner connection ∧ connection.number ∉ process.relayed) ∧
        ∀ other, process.held other = some socket → other = owner := by
  intro process
  have sound : process.Sound settings.mode1 := sound_run legal fresh
  refine ⟨sound.proper, sound.numbered.relayed_nodup, fun owner socket holds => ⟨?_, ?_⟩⟩
  · obtain ⟨connection, present, suits⟩ := sound.keeps.stored owner socket holds
    exact ⟨connection, present, suits, sound.numbered.relayed_gone socket connection present⟩
  · exact fun other also => sound.keeps.sole other owner socket also holds

theorem sessions_apart_serverBack :
    let process := run (Process.step oneSession) (.start oneSession.config) serverBack
    process.relayed = [0, 1] ∧ (∀ relay ∈ process.relays, relay.Proper oneSession.mode1) ∧
      ∃ connection, process.connections 4 = some connection ∧
        process.Suits (.server, 0) connection ∧ connection.number ∉ process.relayed := by
  have legal : Along (Process.step oneSession) (fun process call => call.2.Legal process)
      (.start oneSession.config) serverBack := by
    have noServer (process : Process) (socket : Nat) : ∀ server ∈ (none : Option Nat),
        process.connections server = none ∧ server ≠ socket := by
      intro server member
      cases member
    exact ⟨⟨rfl, noServer _ _⟩, ⟨by decide +kernel, noServer _ _⟩,
      (by decide : (0 : Int32) < 100), ⟨by decide +kernel, noServer _ _⟩, trivial⟩
  have apart := sessions_apart legal (Or.inl (by decide))
  exact ⟨by decide +kernel, apart.1, (apart.2.2 (.server, 0) 4 (by decide +kernel)).1⟩

/-- The descriptors that are open without an entry are those that a viewer of Mode 1
has left: the one of its end with room in the table, when the other table was full.
They stay open for good. -/
theorem loose_run (legal : Along (Process.step settings)
      (fun process call => call.2.Legal process ∧ call.2.Forks) (.start settings.config) calls)
    (fresh : calls.length ≤ 1000000 ∨ Along (Process.step settings)
      (fun process call => call.2.Fresh process) (.start settings.config) calls) :
    (run (Process.step settings) (.start settings.config) calls).loose =
      { socket | ∃ before call after, calls = before ++ call :: after ∧
        socket ∈ (run (Process.step settings) (.start settings.config) before).leaks settings
          call.2 } := by
  have along := along_and.mpr ⟨legal, fresh.elim (fresh_run settings) id⟩
  have collects : Along (Process.step settings) (fun process call =>
      (process.step settings call).loose = process.loose ∪ process.leaks settings call.2)
      (.start settings.config) calls :=
    along.imp_of_invariant (Sound settings.mode1)
      (fun process call allowed sound => (sound.step call allowed.1.1 allowed.2).1)
      (fun process call allowed sound =>
        (sound.step call allowed.1.1 allowed.2).2 allowed.1.2)
      (sound_start settings.config)
  have none : (Process.start settings.config).loose = ∅ :=
    Set.eq_empty_of_forall_notMem fun socket inside => inside.1 rfl
  rw [collects.run_collects loose fun process call => process.leaks settings call.2, none,
    Set.empty_union]

theorem loose_run_viewerAsks :
    5 ∈ (run (Process.step oneSession) (.start oneSession.config) viewerAsks).loose := by
  have legal : Along (Process.step oneSession)
      (fun process call => call.2.Legal process ∧ call.2.Forks) (.start oneSession.config)
      viewerAsks := by
    have forks : (100 : Int32) ≠ -1 := by decide
    refine ⟨⟨⟨rfl, ?_⟩, forks⟩, ⟨⟨by decide +kernel, ?_⟩, forks⟩, trivial⟩
    · intro server member
      cases member
    · intro server member
      cases member
      exact ⟨by decide +kernel, by decide⟩
  rw [loose_run legal (Or.inl (by decide))]
  exact ⟨[(10, serverOfSeven)], _, [], rfl, Set.mem_singleton 5⟩

end Process

end Repeater
