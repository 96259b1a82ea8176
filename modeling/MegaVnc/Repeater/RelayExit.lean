import MegaVnc.Repeater.Rendezvous
import MegaVnc.Repeater.RepeaterProc

/-! # How the end of a relay reaches the tables

Every child process the repeater starts finds a slot in the process table, so
that its end is noticed. A relay that returns frees its code. A relay that a
signal killed has the exit status 0, for which the tables keep both ends: the
code is lost to every later connection.
-/

namespace Repeater

open Slots Transition

/-- `waitpid` has returned the pid of a child, with any exit status. -/
def Input.Child : Input → Prop
  | .acceptConnection _ _ _ _ => True
  | .connectionRemover _ _ _ => True
  | .cleanUpAfterRepeaterProcExit _ pid => 0 < pid

instance : DecidablePred Input.Child
  | .acceptConnection _ _ _ _ => .isTrue trivial
  | .connectionRemover _ _ _ => .isTrue trivial
  | .cleanUpAfterRepeaterProcExit _ _ => inferInstanceAs (Decidable (_ < _))

/-- A session whose process is gone. -/
structure Lists.Lost (lists : Lists) (code : Int64) : Prop where
  session : lists.At code .session
  gone : ∀ proc ∈ lists.repeaterProcs, proc.code ≠ code

/-- The tables keep their lengths. -/
structure SameSize (before after : Lists) : Prop where
  servers : after.servers.length = before.servers.length
  viewers : after.viewers.length = before.viewers.length
  procs : after.repeaterProcs.length = before.repeaterProcs.length

/-- What a connection with a code does, for each result of the fork: it is
refused, it waits, or it starts a session. -/
inductive Accepts (lists : Lists) (code : Int64) : (Int32 → Lists × List RepeaterEvent) → Prop where
  | refused : Accepts lists code fun _ => (lists, [])
  | waits (middle : Lists) (event : RepeaterEvent) (size : SameSize lists middle)
      (procs : middle.repeaterProcs = lists.repeaterProcs) (own : event.code = code)
      (number : event.eventNum = 0 ∨ event.eventNum = 2) :
      Accepts lists code fun _ => (middle, [event])
  | joins (active : Lists) (event : RepeaterEvent) (started : Int32 → RepeaterEvent)
      (size : SameSize lists active) (procs : active.repeaterProcs = lists.repeaterProcs)
      (own : event.code = code) (ownStart : ∀ pid, (started pid).code = code)
      (number : event.eventNum = 0 ∨ event.eventNum = 2)
      (numberStart : ∀ pid, (started pid).eventNum = 4) :
      Accepts lists code fun pid => (forkRepeater active code pid, [event, started pid])

section Accepting

variable {config : Config} {lists : Lists} {now : Int64} {code : Int64} {peerIp : AddrParts}

/-- A new entry keeps the length of its table. -/
theorem length_addInfo {infos next : List RepeaterInfo} {index : Nat}
    (added : addInfo code peerIp now infos = some (index, next)) :
    next.length = infos.length := by
  obtain ⟨rfl, -⟩ := addInfo_eq_some added
  exact length_updateFirst

/-- A viewer waits, joins the server of its code, or is refused. -/
theorem acceptViewer_accepts :
    Accepts lists code (acceptViewer config lists now code peerIp) := by
  unfold acceptViewer addViewerList
  cases added : addInfo code peerIp now lists.viewers with
  | none => exact .refused
  | some result =>
      obtain ⟨viewerInd, viewers⟩ := result
      simp only [Option.map_some]
      have length := length_addInfo added
      cases findServerList { lists with viewers := viewers } code with
      | none => exact .waits _ _ ⟨rfl, length, rfl⟩ rfl rfl (Or.inl rfl)
      | some serverInd =>
          refine .joins (setServerActive (setViewerActive { lists with viewers := viewers } code)
            code) _ _ ⟨length_updateFirst, ?_, rfl⟩ rfl rfl (fun _ => rfl) (Or.inl rfl)
            fun _ => rfl
          exact length_updateFirst.trans length

/-- A server waits, joins the viewer of its code, or is refused. -/
theorem acceptServer_accepts :
    Accepts lists code (acceptServer config lists now code peerIp) := by
  unfold acceptServer addServerList
  cases added : addInfo code peerIp now lists.servers with
  | none => exact .refused
  | some result =>
      obtain ⟨serverInd, servers⟩ := result
      simp only [Option.map_some]
      have length := length_addInfo added
      cases findViewerList { lists with servers := servers } code with
      | none => exact .waits _ _ ⟨length, rfl, rfl⟩ rfl rfl (Or.inr rfl)
      | some viewerInd =>
          refine .joins (setViewerActive (setServerActive { lists with servers := servers } code)
            code) _ _ ⟨?_, length_updateFirst, rfl⟩ rfl rfl (fun _ => rfl) (Or.inr rfl)
            fun _ => rfl
          exact length_updateFirst.trans length

/-- A code that is in the table of its end is refused. -/
theorem acceptConnection_of_held {connectionFrom : ConnectionFrom} {id : List Char} {pid : Int32}
    (held : findDuplicateIdIndex lists connectionFrom (parseId id) ≠ none) :
    acceptConnection config lists now connectionFrom id peerIp pid = (lists, []) := by
  unfold acceptConnection
  split
  · rfl
  · dsimp only
    rw [if_pos held, ite_self]

/-- What a connection does is one of these, for its own code. -/
theorem acceptConnection_accepts (config : Config) (lists : Lists) (now : Int64)
    (connectionFrom : ConnectionFrom) (id : List Char) (peerIp : AddrParts) :
    Accepts lists (parseId id)
      (acceptConnection config lists now connectionFrom id peerIp) := by
  unfold acceptConnection
  split
  · exact .refused
  · dsimp only
    split
    · exact .refused
    · split
      · exact .refused
      · split
        · exact .refused
        · cases connectionFrom with
          | viewer => exact acceptViewer_accepts
          | server => exact acceptServer_accepts

end Accepting

section Tables

variable {config : Config} {lists : Lists} {now : Int64} {code : Int64} {input : Input}
  {pid exitCode : Int32}

/-! ### The process table -/

/-- A fork adds at most an entry for the code of the session. -/
theorem procs_forkRepeater_of_mem {proc : RepeaterProcInfo}
    (member : proc ∈ (forkRepeater lists code pid).repeaterProcs) :
    proc ∈ lists.repeaterProcs ∨ proc.code = code := by
  unfold forkRepeater at member
  split at member
  · exact Or.inl member
  · rcases mem_updateFirst member with kept | ⟨_, _, _, rfl⟩
    · exact Or.inl kept
    · exact Or.inr rfl

/-- The remover does nothing, or frees an entry and tells that its end is gone. -/
theorem connectionRemover_cases (config : Config) (lists : Lists) (now : Int64)
    (connectionFrom : ConnectionFrom) (index : Nat) (peerDisconnected : Bool) :
    connectionRemover config lists now connectionFrom index peerDisconnected = (lists, []) ∨
      ∃ after event, connectionRemover config lists now connectionFrom index peerDisconnected =
        (after, [event]) ∧ SameSize lists after ∧
        after.repeaterProcs = lists.repeaterProcs ∧
        (event.eventNum = 1 ∨ event.eventNum = 3) := by
  cases connectionFrom with
  | viewer =>
      unfold connectionRemover
      dsimp only
      split
      · exact Or.inr ⟨_, _, rfl, ⟨rfl, length_updateFirst, rfl⟩, rfl, Or.inl rfl⟩
      · exact Or.inl rfl
  | server =>
      unfold connectionRemover
      dsimp only
      split
      · exact Or.inr ⟨_, _, rfl, ⟨length_updateFirst, rfl, rfl⟩, rfl, Or.inr rfl⟩
      · exact Or.inl rfl

/-- The end of a process: nothing, or its entry is cleared and its code ends its
session; the ends stay for an exit status other than those of `doRepeater`. -/
theorem cleanUp_cases (config : Config) (lists : Lists) (now : Int64) (exitCode pid : Int32) :
    cleanUpAfterRepeaterProcExit config lists now exitCode pid = (lists, []) ∨
      ∃ proc ∈ lists.repeaterProcs, proc.pid = pid ∧ ∃ event,
        event.code = proc.code ∧ event.eventNum = 5 ∧
        cleanUpAfterRepeaterProcExit config lists now exitCode pid =
          (if exitCode ∈ closingExitCodes then
              removeViewerList (removeServerList (removeRepeaterProcList lists pid) proc.code)
                proc.code
            else removeRepeaterProcList lists pid, [event]) := by
  unfold cleanUpAfterRepeaterProcExit
  split
  · exact Or.inl rfl
  · next proc found =>
      have member : proc ∈ lists.repeaterProcs := List.mem_of_find?_eq_some found
      have named : proc.pid = pid := by simpa using List.find?_some found
      split
      · next serverInd viewerInd serverFound viewerFound =>
          refine Or.inr ⟨proc, member, named, sessionEvent config now .viewerServerSessionEnd lists
            serverInd viewerInd proc.code (connModeOf proc.code), rfl, rfl, ?_⟩
          split
          · rfl
          · rfl
      · exact Or.inl rfl

/-- The end of a process clears its entry, which frees the code. -/
theorem procs_cleanUp_of_mem {proc : RepeaterProcInfo}
    (member : proc ∈ (cleanUpAfterRepeaterProcExit config lists now exitCode pid).1.repeaterProcs) :
    proc ∈ lists.repeaterProcs ∨ proc.code = 0 := by
  have cleared (inside : proc ∈ (removeRepeaterProcList lists pid).repeaterProcs) :
      proc ∈ lists.repeaterProcs ∨ proc.code = 0 := by
    rcases mem_updateFirst inside with kept | ⟨_, _, _, rfl⟩
    · exact Or.inl kept
    · exact Or.inr rfl
  rcases cleanUp_cases config lists now exitCode pid with same | ⟨_, -, -, _, -, -, same⟩
  · rw [same] at member
    exact Or.inl member
  · rw [same] at member
    dsimp only at member
    split at member
    · exact cleared member
    · exact cleared member

theorem SameSize.refl (lists : Lists) : SameSize lists lists := ⟨rfl, rfl, rfl⟩

/-- No call changes the lengths of the tables. -/
theorem sameSize_handle (config : Config) (lists : Lists) (now : Int64) (input : Input) :
    SameSize lists (handle config lists now input).1 := by
  cases input with
  | acceptConnection connectionFrom id peerIp pid =>
      have accepts := acceptConnection_accepts config lists now connectionFrom id peerIp
      change SameSize lists (acceptConnection config lists now connectionFrom id peerIp pid).1
      generalize acceptConnection config lists now connectionFrom id peerIp = outcome at accepts ⊢
      cases accepts with
      | refused => exact .refl lists
      | waits middle event size => exact size
      | joins active event started size =>
          dsimp only
          unfold forkRepeater
          split
          · exact size
          · exact ⟨size.servers, size.viewers, length_updateFirst.trans size.procs⟩
  | connectionRemover connectionFrom index peerDisconnected =>
      change SameSize lists
        (connectionRemover config lists now connectionFrom index peerDisconnected).1
      rcases connectionRemover_cases config lists now connectionFrom index peerDisconnected
        with same | ⟨after, event, same, size, -⟩
      · rw [same]
        exact .refl lists
      · rw [same]
        exact size
  | cleanUpAfterRepeaterProcExit exitCode pid =>
      change SameSize lists (cleanUpAfterRepeaterProcExit config lists now exitCode pid).1
      rcases cleanUp_cases config lists now exitCode pid with same | ⟨proc, -, -, event, -, -, same⟩
      · rw [same]
        exact .refl lists
      · rw [same]
        dsimp only
        split
        · exact ⟨length_updateFirst, length_updateFirst, length_updateFirst⟩
        · exact ⟨rfl, rfl, length_updateFirst⟩

/-- A step leaves sound tables. -/
theorem Effect.sound {outcome : Lists × List RepeaterEvent} (effect : Effect lists outcome)
    (sound : lists.Sound) : outcome.1.Sound := by
  rcases effect with rfl | ⟨later, -⟩
  · exact sound
  · exact later

theorem Lists.At.removeRepeaterProcList {phase : Phase} (held : lists.At code phase)
    (pid : Int32) : (removeRepeaterProcList lists pid).At code phase :=
  ⟨held.server, held.viewer⟩

/-- Clearing the entry of a process keeps the tables sound. -/
theorem Lists.Sound.removeRepeaterProcList (sound : lists.Sound) (pid : Int32) :
    (removeRepeaterProcList lists pid).Sound where
  servers_apart := sound.servers_apart
  viewers_apart := sound.viewers_apart
  procs_apart := sound.procs_apart.updateFirst fun _ _ _ => Or.inl rfl
  phases code named := by
    obtain ⟨phase, held⟩ := sound.phases code named
    exact ⟨phase, held.removeRepeaterProcList pid⟩
  running proc member busy := by
    rcases mem_updateFirst member with kept | ⟨_, _, _, rfl⟩
    · obtain ⟨named, held⟩ := sound.running proc kept busy
      exact ⟨named, held.removeRepeaterProcList pid⟩
    · exact (busy rfl).elim

/-- The tables stay sound for every exit status. -/
theorem sound_handle (sound : lists.Sound) (child : input.Child) :
    (handle config lists now input).1.Sound := by
  cases input with
  | acceptConnection connectionFrom id peerIp pid =>
      exact (acceptConnection_effect sound).sound sound
  | connectionRemover connectionFrom index peerDisconnected =>
      exact (connectionRemover_effect sound).sound sound
  | cleanUpAfterRepeaterProcExit exitCode pid =>
      by_cases closes : exitCode ∈ closingExitCodes
      · exact (cleanUpAfterRepeaterProcExit_effect sound closes child).sound sound
      · change (cleanUpAfterRepeaterProcExit config lists now exitCode pid).1.Sound
        rcases cleanUp_cases config lists now exitCode pid
          with same | ⟨proc, -, -, event, -, -, same⟩
        · rw [same]
          exact sound
        · rw [same, if_neg closes]
          exact sound.removeRepeaterProcList pid

/-- A code in a session is in the table of the servers. -/
theorem Lists.At.exists_server (held : lists.At code .session) :
    ∃ info ∈ lists.servers, info.code = code := by
  by_contra absent
  have none : entry code lists.servers = none :=
    entry_eq_none.mpr fun info member same => absent ⟨info, member, same⟩
  rw [held.server] at none
  cases none

/-- Each process has a session of its own, so a session without a process leaves a
slot for one. -/
theorem Lists.Sound.exists_free_proc (sound : lists.Sound) (named : code ≠ 0)
    (held : lists.At code .session) (fresh : ∀ proc ∈ lists.repeaterProcs, proc.code ≠ code)
    (size : lists.servers.length ≤ lists.repeaterProcs.length) :
    ∃ proc ∈ lists.repeaterProcs, proc.code = 0 := by
  refine exists_free RepeaterInfo.code sound.procs_apart size ?_ ?_
  · intro proc member busy
    refine (sound.running proc member ?_).2.exists_server
    rintro rfl
    exact busy rfl
  · obtain ⟨info, member, rfl⟩ := held.exists_server
    exact ⟨info, member, fresh⟩

/-- Only the second end of a code sends an event 4 after its own. -/
theorem Phase.Step.joins {phase next : Phase} {first : Int}
    (taken : phase.Step [first, 4] next) : next = .session ∧ phase ≠ .session := by
  cases taken with
  | viewerJoins => exact ⟨rfl, by decide⟩
  | serverJoins => exact ⟨rfl, by decide⟩

/-- A process that is forked for a session is recorded. -/
theorem mem_procs_acceptConnection {connectionFrom : ConnectionFrom} {id : List Char}
    {peerIp : AddrParts} (sound : lists.Sound)
    (size : lists.servers.length ≤ lists.repeaterProcs.length)
    (started : 4 ∈ (acceptConnection config lists now connectionFrom id peerIp pid).2.map
      RepeaterEvent.eventNum) (forked : pid ≠ -1) :
    ⟨parseId id, pid⟩ ∈
      (acceptConnection config lists now connectionFrom id peerIp pid).1.repeaterProcs := by
  have named := parseId_ne_zero id
  have effect : Effect lists (acceptConnection config lists now connectionFrom id peerIp (-1)) :=
    acceptConnection_effect sound
  have accepts := acceptConnection_accepts config lists now connectionFrom id peerIp
  generalize acceptConnection config lists now connectionFrom id peerIp = outcome
    at accepts effect started ⊢
  cases accepts with
  | refused => cases started
  | waits middle event size procs own number =>
      rw [List.map_singleton, List.mem_singleton] at started
      rw [← started] at number
      rcases number with number | number <;> cases number
  | joins active event start sameSize procs own ownStart number numberStart =>
      rcases effect with same | ⟨soundActive, moved, phase, next, moves⟩
      · cases congrArg Prod.snd same
      · have whose : moved = parseId id := (moves.own event List.mem_cons_self).symm.trans own
        subst whose
        have taken := moves.taken
        rw [List.map_cons, List.map_singleton, numberStart] at taken
        obtain ⟨rfl, waits⟩ := taken.joins
        have fresh : ∀ proc ∈ active.repeaterProcs, proc.code ≠ parseId id := by
          intro proc member
          rw [procs] at member
          by_cases busy : proc = .zero
          · rw [busy]
            exact Ne.symm named
          · exact sound.proc_code_ne moves.old waits member busy
        have enough : active.servers.length ≤ active.repeaterProcs.length := by
          rw [sameSize.servers, sameSize.procs]
          exact size
        obtain ⟨proc, member, unused⟩ :=
          soundActive.exists_free_proc named moves.new fresh enough
        obtain ⟨old, -, -, placed⟩ := exists_updateFirst
          (fun proc : RepeaterProcInfo => proc.code = 0)
          (fun _ => (⟨parseId id, pid⟩ : RepeaterProcInfo)) member (decide_eq_true unused)
        dsimp only
        rw [forkRepeater, if_neg forked]
        exact placed

/-! ### Lost codes -/

/-- Each step sends an event, so the code of the events is the code that moves. -/
theorem Moves.code_eq {after : Lists} {events : List RepeaterEvent} {phase next : Phase}
    {other : Int64} (moves : Moves lists code events after phase next)
    (own : ∀ event ∈ events, event.code = other) : code = other := by
  have taken := moves.taken
  cases events with
  | nil => cases taken
  | cons event rest =>
      exact (moves.own event List.mem_cons_self).symm.trans (own event List.mem_cons_self)

/-- An effect whose events have another code leaves a code in its phase. -/
theorem Effect.at_of_ne {outcome : Lists × List RepeaterEvent} {other : Int64} {phase : Phase}
    (effect : Effect lists outcome) (own : ∀ event ∈ outcome.2, event.code = other)
    (named : code ≠ 0) (different : code ≠ other) (held : lists.At code phase) :
    outcome.1.At code phase := by
  rcases effect with rfl | ⟨-, moved, before, next, moves⟩
  · exact held
  · have same := moves.code_eq own
    exact moves.others code named (same ▸ different) phase held

/-- Connections with other codes leave a lost session. -/
theorem lost_acceptConnection {connectionFrom : ConnectionFrom} {id : List Char}
    {peerIp : AddrParts} (sound : lists.Sound) (lost : lists.Lost code) (named : code ≠ 0)
    (different : code ≠ parseId id) :
    (acceptConnection config lists now connectionFrom id peerIp pid).1.Lost code ∧
      numbersOf code (acceptConnection config lists now connectionFrom id peerIp pid).2 = [] := by
  have effect : Effect lists (acceptConnection config lists now connectionFrom id peerIp pid) :=
    acceptConnection_effect sound
  have accepts := acceptConnection_accepts config lists now connectionFrom id peerIp
  generalize acceptConnection config lists now connectionFrom id peerIp = outcome
    at accepts effect ⊢
  cases accepts with
  | refused => exact ⟨lost, rfl⟩
  | waits middle event size procs own number =>
      have all : ∀ other ∈ [event], other.code = parseId id := List.forall_mem_singleton.mpr own
      refine ⟨⟨effect.at_of_ne all named different lost.session, ?_⟩,
        numbersOf_eq_nil all different⟩
      intro proc member
      exact lost.gone proc (procs ▸ member)
  | joins active event start size procs own ownStart number numberStart =>
      have all : ∀ other ∈ [event, start pid], other.code = parseId id :=
        List.forall_mem_cons.mpr ⟨own, List.forall_mem_singleton.mpr (ownStart pid)⟩
      refine ⟨⟨effect.at_of_ne all named different lost.session, ?_⟩,
        numbersOf_eq_nil all different⟩
      intro proc member
      rcases procs_forkRepeater_of_mem member with kept | started
      · exact lost.gone proc (procs ▸ kept)
      · rw [started]
        exact different.symm

/-- A code in a session is refused at both ports. -/
theorem Lists.At.refused {connectionFrom : ConnectionFrom} {id : List Char} {peerIp : AddrParts}
    (held : lists.At (parseId id) .session) :
    acceptConnection config lists now connectionFrom id peerIp pid = (lists, []) := by
  apply acceptConnection_of_held
  intro free
  cases connectionFrom with
  | viewer =>
      have none := findInfo_eq_none.mp free
      rw [held.viewer] at none
      cases none
  | server =>
      have none := findInfo_eq_none.mp free
      rw [held.server] at none
      cases none

/-- The remover does not find a lost session, which never waits. -/
theorem lost_connectionRemover {connectionFrom : ConnectionFrom} {index : Nat}
    {peerDisconnected : Bool} (sound : lists.Sound) (lost : lists.Lost code) (named : code ≠ 0) :
    (connectionRemover config lists now connectionFrom index peerDisconnected).1.Lost code ∧
      numbersOf code
        (connectionRemover config lists now connectionFrom index peerDisconnected).2 = [] := by
  have effect : Effect lists
      (connectionRemover config lists now connectionFrom index peerDisconnected) :=
    connectionRemover_effect sound
  rcases connectionRemover_cases config lists now connectionFrom index peerDisconnected
    with same | ⟨after, event, same, -, procs, number⟩
  · rw [same]
    exact ⟨lost, rfl⟩
  · rw [same] at effect ⊢
    rcases effect with unchanged | ⟨-, moved, phase, next, moves⟩
    · cases congrArg Prod.snd unchanged
    · have different : code ≠ moved := by
        rintro rfl
        have taken := moves.taken
        rw [moves.old.unique lost.session, List.map_singleton] at taken
        generalize event.eventNum = first at taken number
        cases taken with
        | ended => rcases number with number | number <;> cases number
      refine ⟨⟨moves.others code named different _ lost.session, ?_⟩,
        numbersOf_eq_nil moves.own different⟩
      intro proc member
      exact lost.gone proc (procs ▸ member)

/-- No child's end finds a lost session, which has no process. -/
theorem lost_cleanUp (sound : lists.Sound) (lost : lists.Lost code) (named : code ≠ 0)
    (child : 0 < pid) :
    (cleanUpAfterRepeaterProcExit config lists now exitCode pid).1.Lost code ∧
      numbersOf code (cleanUpAfterRepeaterProcExit config lists now exitCode pid).2 = [] := by
  have gone : ∀ proc ∈ (removeRepeaterProcList lists pid).repeaterProcs, proc.code ≠ code := by
    intro proc member
    rcases mem_updateFirst member with kept | ⟨_, _, _, rfl⟩
    · exact lost.gone proc kept
    · exact named.symm
  have effect (closes : exitCode ∈ closingExitCodes) :
      Effect lists (cleanUpAfterRepeaterProcExit config lists now exitCode pid) :=
    cleanUpAfterRepeaterProcExit_effect sound closes child
  rcases cleanUp_cases config lists now exitCode pid
    with same | ⟨proc, member, -, event, own, -, same⟩
  · rw [same]
    exact ⟨lost, rfl⟩
  · rw [same] at effect ⊢
    have different : code ≠ proc.code := (lost.gone proc member).symm
    have all : ∀ other ∈ [event], other.code = proc.code := List.forall_mem_singleton.mpr own
    refine ⟨⟨?_, ?_⟩, numbersOf_eq_nil all different⟩
    · by_cases closes : exitCode ∈ closingExitCodes
      · exact (effect closes).at_of_ne all named different lost.session
      · rw [if_neg closes]
        exact lost.session.removeRepeaterProcList pid
    · dsimp only
      split
      · exact gone
      · exact gone

/-- Nothing that happens later touches a lost code, and it sends no event again. -/
theorem lost_handle (config : Config) (now : Int64) (sound : lists.Sound)
    (lost : lists.Lost code) (named : code ≠ 0) (child : input.Child) :
    (handle config lists now input).1.Lost code ∧
      numbersOf code (handle config lists now input).2 = [] := by
  cases input with
  | acceptConnection connectionFrom id peerIp pid =>
      by_cases different : code = parseId id
      · have refused : handle config lists now (.acceptConnection connectionFrom id peerIp pid) =
            (lists, []) := Lists.At.refused (different ▸ lost.session)
        rw [refused]
        exact ⟨lost, rfl⟩
      · exact lost_acceptConnection sound lost named different
  | connectionRemover connectionFrom index peerDisconnected =>
      exact lost_connectionRemover sound lost named
  | cleanUpAfterRepeaterProcExit exitCode pid => exact lost_cleanUp sound lost named child

end Tables

/-! ### Exits -/

/-- A relay returns one of its five codes, or is killed. -/
def Exit.Proper (exit : Exit) : Prop :=
  exit = .killed ∨ exit.status ∈ closingExitCodes

/-- An exit, if the progress has one, is proper. -/
def Progress.Proper (progress : Progress) : Prop :=
  ∀ exit, progress.exit = some exit → exit.Proper

namespace Progress

variable {relay : Relay} {memcpy : Memcpy UInt8}

theorem proper_none : Proper ⟨relay, none⟩ := by
  rintro exit ⟨⟩

theorem proper_killed : Proper ⟨relay, some .killed⟩ := by
  rintro exit ⟨⟩
  exact Or.inl rfl

theorem proper_returned {code : Int32} (listed : code ∈ closingExitCodes) :
    Proper ⟨relay, some (.returned code)⟩ := by
  rintro exit ⟨⟩
  exact Or.inr listed

/-- The exits of a turn are those of its parts. -/
theorem Proper.next {progress : Progress} {rest : Relay → Progress} (proper : progress.Proper)
    (later : ∀ relay, (rest relay).Proper) : (progress.next rest).Proper := by
  unfold Progress.next
  split
  · exact later progress.relay
  · exact proper

/-- Reading from the server ends the relay only in a listed way. -/
theorem proper_readServer (incoming : Except Int32 (List UInt8)) :
    (readServer incoming relay).Proper := by
  unfold readServer
  split
  · split
    · exact proper_returned (by decide)
    · exact proper_none
  · split
    · exact proper_returned (by decide)
    · exact proper_none

/-- Reading from the viewer ends the relay only in a listed way. -/
theorem proper_readViewer (incoming : Except Int32 (List UInt8)) :
    (readViewer incoming relay).Proper := by
  unfold readViewer
  split
  · exact proper_returned (by decide)
  · split
    · exact proper_returned (by decide)
    · exact proper_none

/-- The first half of a turn ends the relay only in a listed way. -/
theorem proper_readBoth (turn : Turn) : (readBoth turn relay).Proper := by
  unfold readBoth
  split
  · exact proper_returned (by decide)
  · refine Proper.next ?_ fun relay => ?_
    · split
      · exact proper_readServer _
      · exact proper_none
    · split
      · exact proper_readViewer _
      · exact proper_none

/-- A send to the server ends the relay only by the signal. -/
theorem proper_sendServer (send : Send) : (sendServer memcpy send relay).Proper := by
  unfold sendServer
  split
  · split
    · exact proper_none
    · exact proper_none
    · exact proper_killed
  · exact proper_none

/-- A send to the viewer ends the relay only by the signal. -/
theorem proper_sendViewer (send : Send) : (sendViewer memcpy send relay).Proper := by
  unfold sendViewer
  split
  · split
    · exact proper_none
    · exact proper_none
    · exact proper_killed
  · exact proper_none

/-- However a relay ends, it is by a listed code or by the signal. -/
theorem proper_run (serverBuf viewerBuf : { cells : List UInt8 // cells.length = bufSize })
    (turns : List Turn) :
    (run (doRepeater memcpy) (.start serverBuf viewerBuf) turns).Proper := by
  have all : Along (doRepeater memcpy) (fun _ _ => True) (.start serverBuf viewerBuf) turns :=
    .of_forall fun _ _ _ => trivial
  refine all.run_invariant Proper ?_ proper_none
  intro progress turn _ proper
  exact ((proper.next fun _ => proper_readBoth turn).next fun _ =>
    proper_sendServer turn.sendServer).next fun _ => proper_sendViewer turn.sendViewer

end Progress

/-! ### Runs -/

section Runs

variable {config : Config} {state : State} {before after : List (Int64 × Input)}
  {code : Int64} {pid : Int32} {proc : RepeaterProcInfo}

/-- The tables are sound and as long as each other. -/
structure Lists.Whole (lists : Lists) : Prop where
  sound : lists.Sound
  size : lists.servers.length ≤ lists.repeaterProcs.length

/-- Each call keeps the tables whole. -/
theorem whole_step {input : Int64 × Input} (child : input.2.Child) (whole : state.lists.Whole) :
    (step config state input).lists.Whole := by
  refine ⟨sound_handle whole.sound child, ?_⟩
  have same := sameSize_handle config state.lists input.1 input.2
  rw [step_lists, same.servers, same.procs]
  exact whole.size

/-- The tables are whole after every run. -/
theorem whole_run (children : ∀ input ∈ before, input.2.Child) :
    (run (step config) (start config) before).lists.Whole := by
  have along : Along (step config) (fun _ input => input.2.Child) (start config) before :=
    .of_forall fun _ input member => children input member
  refine along.run_invariant (fun state => state.lists.Whole) (fun _ _ => whole_step) ?_
  refine ⟨sound_cleanLists config.maxSessions, ?_⟩
  change (List.replicate _ _).length ≤ (List.replicate _ _).length
  rw [List.length_replicate, List.length_replicate]

/-- In every run, whatever the exits of the relays were, a process that is forked
for a session finds a slot in the process table. -/
theorem forked_recorded {now : Int64} {connectionFrom : ConnectionFrom} {id : List Char}
    {peerIp : AddrParts} (children : ∀ input ∈ before, input.2.Child)
    (started : 4 ∈ (acceptConnection config (run (step config) (start config) before).lists now
      connectionFrom id peerIp pid).2.map RepeaterEvent.eventNum) (forked : pid ≠ -1) :
    ⟨parseId id, pid⟩ ∈ (acceptConnection config (run (step config) (start config) before).lists
      now connectionFrom id peerIp pid).1.repeaterProcs :=
  mem_procs_acceptConnection (whole_run children).sound (whole_run children).size started forked

/-- A server and a viewer with the code 7 are in a session, run by process 100. -/
def sevenJoined : List (Int64 × Input) :=
  [(1, .acceptConnection .server "ID:7".toList ⟨10, 0, 0, 1⟩ (-1)),
    (2, .acceptConnection .viewer "ID:7".toList ⟨10, 0, 0, 2⟩ 100)]

theorem forked_recorded_seven :
    ⟨parseId "ID:7".toList, 100⟩ ∈ (acceptConnection .shipped
      (run (step .shipped) (start .shipped) (sevenJoined.take 1)).lists 2 .viewer "ID:7".toList
      ⟨10, 0, 0, 2⟩ 100).1.repeaterProcs :=
  forked_recorded (by decide) (by decide +kernel) (by decide)

/-- A session that is lost stays lost, and nothing more is sent about it. -/
theorem lost_run (config : Config) (children : ∀ input ∈ after, input.2.Child)
    (sound : state.lists.Sound) (lost : state.lists.Lost code) (named : code ≠ 0) :
    (run (step config) state after).lists.Lost code ∧
      numbersOf code (run (step config) state after).sent = numbersOf code state.sent := by
  have along : Along (step config) (fun _ input => input.2.Child) state after :=
    .of_forall fun _ input member => children input member
  have kept := along.run_invariant
    (fun later => later.lists.Sound ∧ later.lists.Lost code ∧
      numbersOf code later.sent = numbersOf code state.sent) ?_ ⟨sound, lost, rfl⟩
  · exact kept.2
  · rintro later input child ⟨sound, lost, same⟩
    obtain ⟨stillLost, silent⟩ := lost_handle config input.1 sound lost named child
    refine ⟨sound_handle sound child, stillLost, ?_⟩
    rw [step_sent, numbersOf_append, silent, List.append_nil, same]

/-- The end of a process that runs a session is told by an event 5. -/
theorem cleanUp_of_found {lists : Lists} (config : Config) (now : Int64) (exitCode : Int32)
    (found : findRepeaterProcList lists pid = some proc) (held : lists.At proc.code .session) :
    ∃ event, event.code = proc.code ∧ event.eventNum = 5 ∧
      cleanUpAfterRepeaterProcExit config lists now exitCode pid =
        (if exitCode ∈ closingExitCodes then
            removeViewerList (removeServerList (removeRepeaterProcList lists pid) proc.code)
              proc.code
          else removeRepeaterProcList lists pid, [event]) := by
  have server : findServerList lists proc.code ≠ none := by
    intro none
    have absent := findInfo_eq_none.mp none
    rw [held.server] at absent
    cases absent
  have viewer : findViewerList lists proc.code ≠ none := by
    intro none
    have absent := findInfo_eq_none.mp none
    rw [held.viewer] at absent
    cases absent
  obtain ⟨serverInd, serverFound⟩ := Option.ne_none_iff_exists'.mp server
  obtain ⟨viewerInd, viewerFound⟩ := Option.ne_none_iff_exists'.mp viewer
  refine ⟨sessionEvent config now .viewerServerSessionEnd lists serverInd viewerInd proc.code
    (connModeOf proc.code), rfl, rfl, ?_⟩
  unfold cleanUpAfterRepeaterProcExit
  simp only [found, serverFound, viewerFound]
  split
  · rfl
  · rfl

/-- The process that has exited was the only one of its code. -/
theorem gone_removeRepeaterProcList {lists : Lists}
    (apart : Apart RepeaterProcInfo.code 0 lists.repeaterProcs)
    (found : findRepeaterProcList lists pid = some proc) (named : proc.code ≠ 0) :
    ∀ other ∈ (removeRepeaterProcList lists pid).repeaterProcs,
      other.code ≠ proc.code := by
  have freed (other : RepeaterProcInfo) :
      RepeaterProcInfo.code ((fun _ => RepeaterProcInfo.zero) other) = 0 := rfl
  exact stored_eq_none.mp (stored_clear_found apart found named freed)

/-- However a relay ends, its session is told to have ended. A relay that returns
frees its code; for a relay that a signal has killed the code stays in both tables,
is refused to every later connection, and is never heard of again. -/
theorem relay_fate {now : Int64} {exit : Exit} (memcpy : Memcpy UInt8) (turns : List Turn)
    (serverBuf viewerBuf : { cells : List UInt8 // cells.length = bufSize })
    (children : ∀ input ∈ before, input.2.Child)
    (found : findRepeaterProcList (run (step config) (start config) before).lists pid = some proc)
    (child : 0 < pid)
    (ended : (run (doRepeater memcpy) (.start serverBuf viewerBuf) turns).exit = some exit) :
    let running := run (step config) (start config) before
    let state := step config running (now, .cleanUpAfterRepeaterProcExit exit.status pid)
    numbersOf proc.code state.sent = numbersOf proc.code running.sent ++ [5] ∧
      (exit ≠ .killed → state.lists.At proc.code .idle) ∧
      (exit = .killed → ∀ after, (∀ input ∈ after, input.2.Child) →
        numbersOf proc.code (run (step config) state after).sent =
          numbersOf proc.code state.sent ∧
        ∀ connectionFrom id, parseId id = proc.code → ∀ now peerIp pid,
          acceptConnection config (run (step config) state after).lists now connectionFrom id
            peerIp pid = ((run (step config) state after).lists, [])) := by
  intro running state
  have sound : running.lists.Sound := (whole_run children).sound
  have member : proc ∈ running.lists.repeaterProcs := List.mem_of_find?_eq_some found
  have pidOf : proc.pid = pid := by simpa using List.find?_some found
  have busy : proc ≠ .zero := by
    rintro rfl
    rw [← pidOf] at child
    exact absurd child (by decide)
  obtain ⟨named, held⟩ := sound.running proc member busy
  obtain ⟨event, own, number, outcome⟩ := cleanUp_of_found config now exit.status found held
  have told : numbersOf proc.code [event] = [5] := by
    rw [numbersOf_cons, if_pos own, number]
    rfl
  have lists : state.lists =
      (cleanUpAfterRepeaterProcExit config running.lists now exit.status pid).1 := rfl
  have sent : state.sent = running.sent ++
      (cleanUpAfterRepeaterProcExit config running.lists now exit.status pid).2 := rfl
  refine ⟨?_, ?_, ?_⟩
  · rw [sent, outcome, numbersOf_append, told]
  · intro returned
    have closes : exit.status ∈ closingExitCodes :=
      (Progress.proper_run serverBuf viewerBuf turns exit ended).resolve_left returned
    have effect : Effect running.lists
        (cleanUpAfterRepeaterProcExit config running.lists now exit.status pid) :=
      cleanUpAfterRepeaterProcExit_effect sound closes child
    rw [lists]
    rw [outcome] at effect ⊢
    rcases effect with same | ⟨-, moved, phase, next, moves⟩
    · cases congrArg Prod.snd same
    · have whose := moves.code_eq (List.forall_mem_singleton.mpr own)
      subst whose
      have taken := moves.taken
      rw [List.map_singleton, number] at taken
      cases taken
      exact moves.new
  · rintro rfl after children
    have lost : state.lists.Lost proc.code := by
      rw [lists, outcome, if_neg (by decide)]
      exact ⟨held.removeRepeaterProcList pid,
        gone_removeRepeaterProcList sound.procs_apart found named⟩
    have reaped : (Input.cleanUpAfterRepeaterProcExit Exit.killed.status pid).Child := child
    have soundState : state.lists.Sound := sound_handle sound reaped
    obtain ⟨stillLost, silent⟩ := lost_run config children soundState lost named
    refine ⟨silent, fun connectionFrom id same now peerIp pid => ?_⟩
    exact Lists.At.refused (same ▸ stillLost.session)

end Runs

/-- The viewer sends a byte, and the server is gone. -/
def brokenPipe : Turn where
  select := some (false, true)
  recvServer := .ok []
  recvViewer := .ok [1]
  sendServer := .sigpipe
  sendViewer := .failed

theorem sevenJoined_found : findRepeaterProcList
    (run (step .shipped) (start .shipped) sevenJoined).lists 100 = some ⟨7, 100⟩ := by
  decide +kernel

theorem relay_fate_brokenPipe :
    let running := run (step .shipped) (start .shipped) sevenJoined
    let state := step .shipped running (3, .cleanUpAfterRepeaterProcExit Exit.killed.status 100)
    numbersOf 7 state.sent = numbersOf 7 running.sent ++ [5] ∧
      (Exit.killed ≠ .killed → state.lists.At 7 .idle) ∧
      (Exit.killed = .killed → ∀ after, (∀ input ∈ after, input.2.Child) →
        numbersOf 7 (run (step .shipped) state after).sent = numbersOf 7 state.sent ∧
        ∀ connectionFrom id, parseId id = 7 → ∀ now peerIp pid,
          acceptConnection .shipped (run (step .shipped) state after).lists now connectionFrom id
            peerIp pid = ((run (step .shipped) state after).lists, [])) :=
  relay_fate Memcpy.loop [brokenPipe] zeros zeros (by decide) sevenJoined_found (by decide) rfl

end Repeater
