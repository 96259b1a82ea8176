import MegaVnc.Repeater.SafeTables

/-! # The codes of entries and relays

A call puts no code into the tables, and starts no relay with one, but a positive id
that is admitted and the next code that Mode 1 invents.
-/

namespace Repeater

open Slots Transition

/-- An id code that the settings admit. -/
def Config.Admits (config : Config) (code : Int64) : Prop :=
  0 < code ∧ (config.requireListedId = true → isCodeInIdList config code = true)

/-- All codes in the two tables and in the process table are allowed. -/
structure Lists.Coded (allowed : Int64 → Prop) (lists : Lists) : Prop where
  infos : ∀ connectionFrom, ∀ info ∈ lists.infos connectionFrom, allowed info.code
  procs : ∀ proc ∈ lists.repeaterProcs, allowed proc.code

/-- And so are the codes of all relays that were started. -/
structure Process.Coded (allowed : Int64 → Prop) (process : Process) : Prop where
  tables : process.lists.Coded allowed
  relays : ∀ relay ∈ process.relays, allowed relay.code

variable {allowed : Int64 → Prop} {connectionFrom : ConnectionFrom} {code : Int64}
  {now : Int64} {pid : Int32}

/-! ### Tables -/

section Tables

variable {lists after : Lists} {infos next : List RepeaterInfo} {peerIp : AddrParts}
  {index : Nat}

/-- A change that keeps allowed codes allowed keeps all of them. -/
theorem coded_updateFirst {hit : RepeaterInfo → Bool} {change : RepeaterInfo → RepeaterInfo}
    (coded : ∀ info ∈ infos, allowed info.code)
    (changed : ∀ info, allowed info.code → allowed (change info).code) :
    ∀ info ∈ updateFirst hit change infos, allowed info.code := by
  intro info member
  rcases mem_updateFirst member with kept | ⟨old, present, -, rfl⟩
  · exact coded info kept
  · exact changed old (coded old present)

/-- A table of allowed codes may be put. -/
theorem Lists.Coded.put (coded : lists.Coded allowed) (next : ∀ info ∈ infos, allowed info.code) :
    (lists.put connectionFrom infos).Coded allowed := by
  refine ⟨fun side => ?_, repeaterProcs_put.symm ▸ coded.procs⟩
  rcases side.eq_or_other connectionFrom with rfl | rfl
  · rw [infos_put_self]
    exact next
  · rw [infos_put_other]
    exact coded.infos _

/-- A new entry has the code it is given. -/
theorem Lists.Coded.addInfo (coded : lists.Coded allowed) (given : allowed code)
    (added : addInfo code peerIp now (lists.infos connectionFrom) = some (index, next)) :
    (lists.put connectionFrom next).Coded allowed := by
  obtain ⟨-, rfl⟩ := addInfo_found added
  exact coded.put (coded_updateFirst (coded.infos connectionFrom) fun _ _ => given)

/-- An entry that is activated at once has the code it is given. -/
theorem Lists.Coded.addInfo_activateInfo (coded : lists.Coded allowed) (given : allowed code)
    (added : Repeater.addInfo code peerIp now (lists.infos connectionFrom) = some (index, next)) :
    (lists.put connectionFrom (activateInfo code next)).Coded allowed := by
  obtain ⟨-, rfl⟩ := addInfo_found added
  exact coded.put (coded_updateFirst (coded_updateFirst (coded.infos connectionFrom)
    fun _ _ => given) fun _ kept => kept)

/-- Activating changes no code. -/
theorem Lists.Coded.activate (coded : lists.Coded allowed) :
    (lists.activate code).Coded allowed := by
  refine ⟨fun side => ?_, coded.procs⟩
  rw [infos_activate]
  exact coded_updateFirst (coded.infos side) fun _ kept => kept

/-- The fork records the code it is given. -/
theorem Lists.Coded.forkRepeater (coded : lists.Coded allowed) (given : allowed code)
    (pid : Int32) : (forkRepeater lists code pid).Coded allowed := by
  refine ⟨fun side => ?_, fun proc member => ?_⟩
  · rw [infos_forkRepeater]
    exact coded.infos side
  · rcases procs_forkRepeater_of_mem member with old | same
    · exact coded.procs proc old
    · exact same ▸ given

/-- Entries that become free have the code 0. -/
theorem Lists.Coded.of_frees (coded : lists.Coded allowed) (zero : allowed 0)
    (frees : Frees lists after)
    (procs : ∀ proc ∈ after.repeaterProcs, proc ∈ lists.repeaterProcs ∨ proc.code = 0) :
    after.Coded allowed := by
  refine ⟨fun side info member => ?_, fun proc member => ?_⟩
  rotate_left
  · rcases procs proc member with old | free
    · exact coded.procs proc old
    · exact free ▸ zero
  obtain ⟨index, there⟩ := List.getElem?_of_mem member
  have stored : (after.infos side).getD index .zero = info := by
    rw [List.getD_eq_getElem?_getD, there]
    rfl
  rcases frees side index with same | free
  · rw [stored] at same
    cases before : (lists.infos side)[index]? with
    | none =>
        rw [List.getD_eq_getElem?_getD, before] at same
        rw [same]
        exact zero
    | some old =>
        rw [List.getD_eq_getElem?_getD, before] at same
        rw [same]
        exact coded.infos side old (List.mem_of_getElem? before)
  · rw [stored] at free
    rw [free]
    exact zero

end Tables

/-! ### Calls -/

namespace Process

variable {settings : Settings} {process after : Process} {accepted : Accepted} {id : List Char}

/-- Starting a relay invents no code. -/
theorem mode1ConnCode_startRelay (serverSocket viewerSocket : Nat) (kickstart : List UInt8)
    (pid : Int32) : (startRelay process serverSocket viewerSocket code kickstart
      pid).mode1ConnCode = process.mode1ConnCode := by
  unfold startRelay
  dsimp only
  split <;> rfl

/-- A viewer of Mode 2 invents no code. -/
theorem mode1ConnCode_acceptMode2Viewer :
    (acceptMode2Viewer settings process now accepted code).mode1ConnCode =
      process.mode1ConnCode := by
  unfold acceptMode2Viewer
  cases addViewerList process.lists code accepted.peerIp now with
  | none => rfl
  | some viewer =>
      obtain ⟨viewerInd, lists⟩ := viewer
      dsimp only [Process.send]
      cases findServerList lists code with
      | none => rfl
      | some serverInd => exact mode1ConnCode_startRelay _ _ _ _

/-- A server of Mode 2 invents no code. -/
theorem mode1ConnCode_acceptMode2Server :
    (acceptMode2Server settings process now accepted code).mode1ConnCode =
      process.mode1ConnCode := by
  unfold acceptMode2Server
  cases addServerList process.lists code accepted.peerIp now with
  | none => rfl
  | some server =>
      obtain ⟨serverInd, lists⟩ := server
      dsimp only [Process.send]
      cases findViewerList lists code with
      | none => rfl
      | some viewerInd => exact mode1ConnCode_startRelay _ _ _ _

/-- An id code invents no code. -/
theorem mode1ConnCode_acceptMode2 :
    (acceptMode2 settings process now accepted connectionFrom id).mode1ConnCode =
      process.mode1ConnCode := by
  unfold acceptMode2
  dsimp only
  split
  · rfl
  · split
    · rfl
    · split
      · rfl
      · cases connectionFrom with
        | viewer => exact mode1ConnCode_acceptMode2Viewer
        | server => exact mode1ConnCode_acceptMode2Server

/-- A session of Mode 1 has the code that was invented before it. -/
theorem mode1ConnCode_addMode1Session {server : Nat} {serverIp : AddrParts} :
    (addMode1Session settings process now accepted server serverIp code).mode1ConnCode =
      process.mode1ConnCode := by
  unfold addMode1Session
  cases addViewerList process.lists code accepted.peerIp now with
  | none =>
      dsimp only
      cases addServerList process.lists code serverIp now <;> rfl
  | some viewer =>
      obtain ⟨viewerInd, lists⟩ := viewer
      dsimp only
      cases addServerList (setViewerActive lists code) code serverIp now with
      | none => rfl
      | some added => exact mode1ConnCode_startRelay _ _ _ _

/-- A viewer of Mode 1 has one code invented, if its server is connected. -/
theorem mode1ConnCode_acceptMode1 :
    (acceptMode1 settings process now accepted connectionFrom id).mode1ConnCode =
        process.mode1ConnCode ∨
      (acceptMode1 settings process now accepted connectionFrom id).mode1ConnCode =
        nextMode1ConnCode process.mode1ConnCode := by
  unfold acceptMode1
  split
  · exact Or.inl rfl
  · split
    · exact Or.inl rfl
    · cases connectionFrom with
      | server => exact Or.inl rfl
      | viewer =>
          unfold acceptMode1Viewer
          dsimp only
          split
          · exact Or.inl rfl
          · exact Or.inr mode1ConnCode_addMode1Session

/-- A call invents at most one code. -/
theorem mode1ConnCode_step (call : Int64 × ProcessCall) :
    (process.step settings call).mode1ConnCode = process.mode1ConnCode ∨
      (process.step settings call).mode1ConnCode = nextMode1ConnCode process.mode1ConnCode := by
  obtain ⟨now, called⟩ := call
  cases called with
  | acceptConnection connectionFrom accepted =>
      change
        (Repeater.acceptSocket settings process now accepted connectionFrom).mode1ConnCode = _ ∨
        (Repeater.acceptSocket settings process now accepted connectionFrom).mode1ConnCode = _
      unfold Repeater.acceptSocket
      dsimp only
      split
      · exact Or.inl rfl
      · split
        · exact Or.inl rfl
        · split
          · split
            · exact Or.inl mode1ConnCode_acceptMode2
            · exact Or.inl rfl
          · split
            · exact mode1ConnCode_acceptMode1
            · exact Or.inl rfl
  | connectionRemover connectionFrom index result =>
      refine Or.inl ?_
      change (Repeater.removeSocket settings process now connectionFrom index
        result).mode1ConnCode = _
      unfold Repeater.removeSocket
      dsimp only
      split
      · split <;> rfl
      · rfl
  | cleanUpAfterRepeaterProcExit exitCode pid => exact Or.inl rfl

theorem Coded.congr (coded : process.Coded allowed) (lists : after.lists = process.lists)
    (relays : after.relays = process.relays) : after.Coded allowed :=
  ⟨lists ▸ coded.tables, relays ▸ coded.relays⟩

/-- A relay has the code of its session. -/
theorem Coded.startRelay {serverSocket viewerSocket : Nat} {kickstart : List UInt8}
    (coded : process.Coded allowed) (given : allowed code) :
    (startRelay process serverSocket viewerSocket code kickstart pid).Coded allowed where
  tables := by
    rw [lists_startRelay]
    exact coded.tables.forkRepeater given pid
  relays := by
    unfold Repeater.startRelay
    dsimp only
    split
    · exact coded.relays
    · intro relay member
      rcases List.mem_append.mp member with old | new
      · exact coded.relays relay old
      · rw [List.mem_singleton.mp new]
        exact given

theorem Coded.send (coded : process.Coded allowed) (events : List RepeaterEvent) :
    (process.send events).Coded allowed :=
  ⟨coded.tables, coded.relays⟩

/-- A viewer's entry and relay have the code that it sent. -/
theorem Coded.acceptMode2Viewer (coded : process.Coded allowed) (given : allowed code) :
    (acceptMode2Viewer settings process now accepted code).Coded allowed := by
  unfold Repeater.acceptMode2Viewer addViewerList
  cases added : addInfo code accepted.peerIp now process.lists.viewers with
  | none => exact coded.congr rfl rfl
  | some viewer =>
      obtain ⟨viewerInd, viewers⟩ := viewer
      have placed : (process.lists.put .viewer viewers).Coded allowed :=
        coded.tables.addInfo given added
      dsimp only [Option.map_some]
      split
      · exact ⟨placed, coded.relays⟩
      · refine Coded.send (Coded.startRelay ?_ given) _
        exact ⟨placed.activate, coded.relays⟩

/-- A server's entry and relay have the code that it sent. -/
theorem Coded.acceptMode2Server (coded : process.Coded allowed) (given : allowed code) :
    (acceptMode2Server settings process now accepted code).Coded allowed := by
  unfold Repeater.acceptMode2Server addServerList
  cases added : addInfo code accepted.peerIp now process.lists.servers with
  | none => exact coded.congr rfl rfl
  | some server =>
      obtain ⟨serverInd, servers⟩ := server
      have placed : (process.lists.put .server servers).Coded allowed :=
        coded.tables.addInfo given added
      dsimp only [Option.map_some]
      split
      · exact ⟨placed, coded.relays⟩
      · refine Coded.send (Coded.startRelay ?_ given) _
        exact ⟨placed.activate, coded.relays⟩

/-- The code of an id is used only when it is positive and admitted. -/
theorem Coded.acceptMode2 (coded : process.Coded allowed)
    (admitted : ∀ code, settings.config.Admits code → allowed code) :
    (acceptMode2 settings process now accepted connectionFrom id).Coded allowed := by
  have refused : (process.closeSocket accepted.socket).Coded allowed := coded.congr rfl rfl
  unfold Repeater.acceptMode2
  dsimp only
  split
  · exact refused
  · next parsed =>
      split
      · exact refused
      · split
        · exact refused
        · next listed =>
            have given : allowed (parseId id) := by
              refine admitted _ ⟨parseId_pos parsed, fun required => ?_⟩
              exact Decidable.of_not_not fun unlisted => listed ⟨required, unlisted⟩
            cases connectionFrom with
            | viewer => exact coded.acceptMode2Viewer given
            | server => exact coded.acceptMode2Server given

/-- A session of Mode 1 uses the code that was invented for it. -/
theorem Coded.addMode1Session {server : Nat} {serverIp : AddrParts}
    (coded : process.Coded allowed) (given : allowed code) :
    (addMode1Session settings process now accepted server serverIp code).Coded allowed := by
  obtain ⟨tables, relays⟩ := coded
  unfold Repeater.addMode1Session addViewerList addServerList
  cases viewerAdded : addInfo code accepted.peerIp now process.lists.viewers with
  | none =>
      cases serverAdded : addInfo code serverIp now process.lists.servers with
      | none =>
          dsimp only [Option.map_none]
          rw [serverAdded]
          exact ⟨tables, relays⟩
      | some added =>
          obtain ⟨serverInd, servers⟩ := added
          have placed : (process.lists.put .server (activateInfo code servers)).Coded allowed :=
            tables.addInfo_activateInfo given serverAdded
          dsimp only [Option.map_none]
          rw [serverAdded]
          exact ⟨placed, relays⟩
  | some added =>
      obtain ⟨viewerInd, viewers⟩ := added
      have viewerPlaced : (process.lists.put .viewer (activateInfo code viewers)).Coded allowed :=
        tables.addInfo_activateInfo given viewerAdded
      cases serverAdded : addInfo code serverIp now process.lists.servers with
      | none =>
          dsimp only [Option.map_some, setViewerActive]
          rw [serverAdded]
          exact ⟨viewerPlaced, relays⟩
      | some added =>
          obtain ⟨serverInd, servers⟩ := added
          have placed : ((process.lists.put .viewer (activateInfo code viewers)).put .server
              (activateInfo code servers)).Coded allowed :=
            viewerPlaced.addInfo_activateInfo given serverAdded
          dsimp only [Option.map_some, setViewerActive]
          rw [serverAdded]
          refine Coded.send (Coded.startRelay ?_ given) _
          exact ⟨placed, relays⟩

/-- Mode 1 uses only the code it invents. -/
theorem Coded.acceptMode1 (coded : process.Coded allowed)
    (invented : (acceptMode1 settings process now accepted connectionFrom id).mode1ConnCode =
      nextMode1ConnCode process.mode1ConnCode →
        allowed (nextMode1ConnCode process.mode1ConnCode)) :
    (acceptMode1 settings process now accepted connectionFrom id).Coded allowed := by
  have refused : (process.closeSocket accepted.socket).Coded allowed := coded.congr rfl rfl
  unfold Repeater.acceptMode1 at invented ⊢
  cases parsed : parseHostAndPort id with
  | none => exact refused
  | some hostAndPort =>
      obtain ⟨host, port⟩ := hostAndPort
      rw [parsed] at invented
      dsimp only at invented ⊢
      split at invented
      · next other =>
          rw [if_pos other]
          exact refused
      · next allowedPort =>
          rw [if_neg allowedPort]
          cases connectionFrom with
          | server => exact refused
          | viewer =>
              unfold acceptMode1Viewer at invented ⊢
              cases opened : openConnectionToVncServer settings.mode1 accepted with
              | none => exact refused
              | some server =>
                  rw [opened] at invented
                  exact Coded.addMode1Session (coded.congr rfl rfl)
                    (invented mode1ConnCode_addMode1Session)

/-- A connection uses an admitted code, or the next one that Mode 1 invents. -/
theorem Coded.acceptSocket (coded : process.Coded allowed)
    (admitted : ∀ code, settings.config.Admits code → allowed code)
    (invented : (acceptSocket settings process now accepted connectionFrom).mode1ConnCode =
      nextMode1ConnCode process.mode1ConnCode →
        allowed (nextMode1ConnCode process.mode1ConnCode)) :
    (acceptSocket settings process now accepted connectionFrom).Coded allowed := by
  have opened : (process.openSocket accepted.socket
      (.accepted connectionFrom accepted.id)).Coded allowed := coded.congr rfl rfl
  have refused : ((process.openSocket accepted.socket
      (.accepted connectionFrom accepted.id)).closeSocket accepted.socket).Coded allowed :=
    coded.congr rfl rfl
  unfold Repeater.acceptSocket at invented ⊢
  dsimp only at invented ⊢
  by_cases silent : connectionFrom = .viewer ∧ ¬ accepted.versionWritten = true
  · rw [if_pos silent]
    exact refused
  · rw [if_neg silent] at invented ⊢
    cases given : accepted.id with
    | none =>
        rw [given] at refused
        exact refused
    | some id =>
        rw [given] at invented opened refused
        dsimp only at invented ⊢
        by_cases isId : checkIdCode id = true
        · rw [if_pos isId]
          split
          · exact opened.acceptMode2 admitted
          · exact refused
        · rw [if_neg isId] at invented ⊢
          by_cases mode1 : settings.allowedModes &&& connMode1 > 0
          · rw [if_pos mode1] at invented ⊢
            exact opened.acceptMode1 invented
          · rw [if_neg mode1]
            exact refused

/-- The remover leaves no other new code than that of free entries. -/
theorem Coded.removeSocket {index : Nat} {result : RecvResult} (coded : process.Coded allowed)
    (zero : allowed 0) :
    (removeSocket settings process now connectionFrom index result).Coded allowed where
  tables := by
    have lists : (Repeater.removeSocket settings process now connectionFrom index result).lists =
        _ := congrArg State.lists (tables_removeSocket connectionFrom index result)
    refine lists ▸ coded.tables.of_frees zero (frees_connectionRemover _ _ _) ?_
    intro proc member
    refine Or.inl ?_
    rcases connectionRemover_cases settings.config process.lists now connectionFrom index
      (isPeerDisconnected result).1 with same | ⟨cleared, _, same, -, procs, -⟩
    · rwa [same] at member
    · rw [same] at member
      change proc ∈ cleared.repeaterProcs at member
      rwa [procs] at member
  relays := by
    unfold Repeater.removeSocket
    dsimp only
    split
    · split <;> exact coded.relays
    · exact coded.relays

/-- A call keeps what is true of the codes there are and of the codes it may add. -/
theorem Coded.step (coded : process.Coded allowed) (zero : allowed 0)
    (admitted : ∀ code, settings.config.Admits code → allowed code) (call : Int64 × ProcessCall)
    (invented : (process.step settings call).mode1ConnCode =
      nextMode1ConnCode process.mode1ConnCode →
        allowed (nextMode1ConnCode process.mode1ConnCode)) :
    (process.step settings call).Coded allowed := by
  obtain ⟨now, called⟩ := call
  cases called with
  | acceptConnection connectionFrom accepted => exact coded.acceptSocket admitted invented
  | connectionRemover connectionFrom index result => exact coded.removeSocket zero
  | cleanUpAfterRepeaterProcExit exitCode pid =>
      refine ⟨coded.tables.of_frees zero (frees_cleanUp exitCode pid) fun proc member => ?_,
        coded.relays⟩
      exact procs_cleanUp_of_mem member

/-- At the start there are only the codes of free entries. -/
theorem coded_start (config : Config) (zero : allowed 0) :
    (Process.start config).Coded allowed where
  tables := by
    refine ⟨fun side info member => ?_, fun proc member => ?_⟩
    · have free : info = .zero := by
        cases side <;> exact List.eq_of_mem_replicate member
      rw [free]
      exact zero
    · have free : proc = .zero := List.eq_of_mem_replicate member
      rw [free]
      exact zero
  relays relay member := by cases member

end Process

end Repeater
