import MegaVnc.Repeater.Repeater

/-! # What the repeater does for one code

For each code the repeater is a rendezvous of a server and a viewer: the first
end waits for the second, both are in a session until it ends, and an end that
waits can be removed. The tables, whatever else they hold, take exactly these
steps for a code and send its events at them.
-/

namespace Repeater

open Slots Transition

/-- Which ends of a code the repeater holds. -/
inductive Phase where
  | idle
  | viewerWaits
  | serverWaits
  | session
deriving DecidableEq, Repr

namespace Phase

/-- Whether there is a server, and whether it is active. -/
def server : Phase → Option Bool
  | .idle | .viewerWaits => none
  | .serverWaits => some false
  | .session => some true

/-- What the table of viewers has for the code in the phase. -/
def viewer : Phase → Option Bool
  | .idle | .serverWaits => none
  | .viewerWaits => some false
  | .session => some true

theorem eq_of_ends {first second : Phase} (server : first.server = second.server)
    (viewer : first.viewer = second.viewer) : first = second := by
  cases first <;> cases second <;> simp_all [Phase.server, Phase.viewer]

/-- A server without a viewer waits. -/
theorem eq_serverWaits {phase : Phase} (server : phase.server ≠ none)
    (viewer : phase.viewer = none) : phase = .serverWaits := by
  cases phase with
  | serverWaits => rfl
  | idle => exact (server rfl).elim
  | viewerWaits => cases viewer
  | session => cases viewer

/-- A viewer without a server waits. -/
theorem eq_viewerWaits {phase : Phase} (server : phase.server = none)
    (viewer : phase.viewer ≠ none) : phase = .viewerWaits := by
  cases phase with
  | viewerWaits => rfl
  | idle => exact (viewer rfl).elim
  | serverWaits => cases server
  | session => cases server

/-- A step, with the numbers of the events sent at it. -/
inductive Step : Phase → List Int → Phase → Prop where
  | viewerFirst : Step .idle [0] .viewerWaits
  | serverFirst : Step .idle [2] .serverWaits
  | viewerJoins : Step .serverWaits [0, 4] .session
  | serverJoins : Step .viewerWaits [2, 4] .session
  | viewerRemoved : Step .viewerWaits [1] .idle
  | serverRemoved : Step .serverWaits [3] .idle
  | ended : Step .session [5] .idle

/-- The phase reached from `idle`, with the numbers of all events sent. -/
inductive Reached : List Int → Phase → Prop where
  | start : Reached [] .idle
  | step {numbers more : List Int} {phase next : Phase} (reached : Reached numbers phase)
      (taken : phase.Step more next) : Reached (numbers ++ more) next

end Phase

/-! ### One table -/

/-- The entry of a code, by its `active` flag. -/
def entry (code : Int64) (infos : List RepeaterInfo) : Option Bool :=
  (stored RepeaterInfo.code code infos).map RepeaterInfo.active

section OneTable

variable {infos next : List RepeaterInfo} {code other : Int64} {peerIp : AddrParts} {now : Int64}
  {index : Nat}

theorem entry_eq_none : entry code infos = none ↔ ∀ info ∈ infos, info.code ≠ code := by
  rw [entry, Option.map_eq_none_iff, stored_eq_none]

theorem findInfo_eq_none : findInfo code infos = none ↔ entry code infos = none := by
  simp only [findInfo, List.findIdx?_eq_none_iff, decide_eq_false_iff_not, entry_eq_none, ne_eq]

/-- A code that is found has an entry. -/
theorem entry_ne_none_of_found (found : findInfo code infos = some index) :
    entry code infos ≠ none := by
  intro missing
  rw [findInfo_eq_none.mpr missing] at found
  cases found

/-- A new entry takes a free one, which there is. -/
theorem addInfo_eq_some (added : addInfo code peerIp now infos = some (index, next)) :
    next = updateFirst (fun info => info.code = 0)
        (fun _ => { code := code, timeStamp := now.toUInt64, peerIp := peerIp, active := false })
        infos ∧ ∃ info, stored RepeaterInfo.code 0 infos = some info := by
  simp only [addInfo, Option.map_eq_some_iff, Prod.mk.injEq] at added
  obtain ⟨position, found, rfl, rfl⟩ := added
  refine ⟨rfl, ?_⟩
  apply Option.ne_none_iff_exists'.mp
  intro missing
  have full : infos.findIdx? (fun info => info.code = 0) = none := by
    apply List.findIdx?_eq_none_iff.mpr
    intro info member
    exact decide_eq_false (stored_eq_none.mp missing info member)
  rw [full] at found
  cases found

/-- A new entry waits, and no other code's entry changes. -/
theorem entry_addInfo (added : addInfo code peerIp now infos = some (index, next))
    (absent : entry code infos = none) (taken : other ≠ 0) :
    entry other next = if other = code then some false else entry other infos := by
  obtain ⟨rfl, info, room⟩ := addInfo_eq_some added
  have unused : stored RepeaterInfo.code code infos = none := Option.map_eq_none_iff.mp absent
  rw [entry, stored_place (fun _ => rfl) unused taken, room]
  split
  · rfl
  · rfl

/-- A removed code has no entry, and no other code's entry changes. -/
theorem entry_removeInfo (apart : Apart RepeaterInfo.code 0 infos) (named : code ≠ 0)
    (taken : other ≠ 0) :
    entry other (removeInfo code infos) = if other = code then none else entry other infos := by
  rw [entry, removeInfo, stored_clear apart (fun _ => rfl) named taken]
  split
  · rfl
  · rfl

/-- An activated entry is in a session, and no other code's entry changes. -/
theorem entry_activateInfo : entry other (activateInfo code infos) =
    if other = code then (entry code infos).map fun _ => true else entry other infos := by
  have kept (info : RepeaterInfo) :
      RepeaterInfo.code { info with active := true } = info.code := rfl
  rw [entry, activateInfo, stored_change kept]
  split
  · rw [entry, Option.map_map, Option.map_map]
    rfl
  · rfl

/-- A code that has no entry gets only one. -/
theorem apart_addInfo (apart : Apart RepeaterInfo.code 0 infos)
    (added : addInfo code peerIp now infos = some (index, next))
    (absent : entry code infos = none) : Apart RepeaterInfo.code 0 next := by
  obtain ⟨rfl, -⟩ := addInfo_eq_some added
  apply apart.updateFirst
  intro info member hit
  exact Or.inr (Or.inr (entry_eq_none.mp absent))

/-- Removing an entry leaves each code one. -/
theorem apart_removeInfo (apart : Apart RepeaterInfo.code 0 infos) :
    Apart RepeaterInfo.code 0 (removeInfo code infos) := by
  apply apart.updateFirst
  intro info member hit
  exact Or.inl rfl

/-- Activating an entry leaves each code one. -/
theorem apart_activateInfo (apart : Apart RepeaterInfo.code 0 infos) :
    Apart RepeaterInfo.code 0 (activateInfo code infos) := by
  apply apart.updateFirst
  intro info member hit
  exact Or.inr (Or.inl rfl)

end OneTable

/-! ### One code in both tables -/

/-- The tables hold the ends of a code that its phase says. -/
structure Lists.At (lists : Lists) (code : Int64) (phase : Phase) : Prop where
  server : entry code lists.servers = phase.server
  viewer : entry code lists.viewers = phase.viewer

theorem Lists.At.unique {lists : Lists} {code : Int64} {first second : Phase}
    (one : lists.At code first) (two : lists.At code second) : first = second :=
  Phase.eq_of_ends (one.server.symm.trans two.server) (one.viewer.symm.trans two.viewer)

/-- What holds between two inputs. -/
structure Lists.Sound (lists : Lists) : Prop where
  servers_apart : Apart RepeaterInfo.code 0 lists.servers
  viewers_apart : Apart RepeaterInfo.code 0 lists.viewers
  procs_apart : Apart RepeaterProcInfo.code 0 lists.repeaterProcs
  phases : ∀ code ≠ 0, ∃ phase, lists.At code phase
  running : ∀ proc ∈ lists.repeaterProcs, proc ≠ .zero →
    proc.code ≠ 0 ∧ lists.At proc.code .session

/-- Empty tables are idle about every code. -/
theorem at_cleanLists (maxSessions : Nat) {code : Int64} (named : code ≠ 0) :
    (cleanLists maxSessions).At code .idle := by
  have absent : entry code (List.replicate maxSessions .zero) = none := by
    apply entry_eq_none.mpr
    intro info member
    rw [List.eq_of_mem_replicate member]
    exact Ne.symm named
  exact ⟨absent, absent⟩

/-- Empty tables are sound. -/
theorem sound_cleanLists (maxSessions : Nat) : (cleanLists maxSessions).Sound where
  servers_apart := apart_replicate maxSessions RepeaterInfo.zero rfl
  viewers_apart := apart_replicate maxSessions RepeaterInfo.zero rfl
  procs_apart := apart_replicate maxSessions RepeaterProcInfo.zero rfl
  phases _ named := ⟨.idle, at_cleanLists maxSessions named⟩
  running _ member busy := (busy (List.eq_of_mem_replicate member)).elim

/-- The numbers of the events of a code. -/
def numbersOf (code : Int64) (events : List RepeaterEvent) : List Int :=
  (events.filter fun event => event.code = code).map RepeaterEvent.eventNum

theorem numbersOf_append (code : Int64) (first second : List RepeaterEvent) :
    numbersOf code (first ++ second) = numbersOf code first ++ numbersOf code second := by
  rw [numbersOf, List.filter_append, List.map_append]
  rfl

/-- An event of the code puts its number in front, one of another code nothing. -/
theorem numbersOf_cons (code : Int64) (event : RepeaterEvent) (rest : List RepeaterEvent) :
    numbersOf code (event :: rest) =
      if event.code = code then event.eventNum :: numbersOf code rest
      else numbersOf code rest := by
  unfold numbersOf
  by_cases own : event.code = code
  · rw [if_pos own, List.filter_cons_of_pos (by simp [own]), List.map_cons]
  · rw [if_neg own, List.filter_cons_of_neg (by simp [own])]

/-- Events of one code are those of no other. -/
theorem numbersOf_eq_nil {code other : Int64} {events : List RepeaterEvent}
    (all : ∀ event ∈ events, event.code = code) (different : other ≠ code) :
    numbersOf other events = [] := by
  rw [numbersOf, List.filter_eq_nil_iff.mpr]
  · rfl
  · intro event member
    rw [all event member, decide_eq_true_eq]
    exact Ne.symm different

/-- One code takes a step and sends its events; the other codes stay. -/
structure Moves (before : Lists) (code : Int64) (events : List RepeaterEvent) (after : Lists)
    (phase next : Phase) : Prop where
  named : code ≠ 0
  old : before.At code phase
  new : after.At code next
  taken : phase.Step (events.map RepeaterEvent.eventNum) next
  own : ∀ event ∈ events, event.code = code
  others : ∀ other ≠ 0, other ≠ code → ∀ phase, before.At other phase → after.At other phase

/-- A step keeps the tables sound when the processes it leaves are those of the
other codes, or run the session it starts. -/
theorem Moves.sound {before after : Lists} {code : Int64} {events : List RepeaterEvent}
    {phase next : Phase} (moves : Moves before code events after phase next)
    (sound : before.Sound) (servers_apart : Apart RepeaterInfo.code 0 after.servers)
    (viewers_apart : Apart RepeaterInfo.code 0 after.viewers)
    (procs_apart : Apart RepeaterProcInfo.code 0 after.repeaterProcs)
    (procs : ∀ proc ∈ after.repeaterProcs, proc ≠ .zero →
      proc.code = code ∧ next = .session ∨ proc.code ≠ code ∧ proc ∈ before.repeaterProcs) :
    after.Sound where
  servers_apart := servers_apart
  viewers_apart := viewers_apart
  procs_apart := procs_apart
  phases other taken := by
    by_cases same : other = code
    · exact ⟨next, same ▸ moves.new⟩
    · obtain ⟨kept, held⟩ := sound.phases other taken
      exact ⟨kept, moves.others other taken same kept held⟩
  running proc member busy := by
    rcases procs proc member busy with ⟨same, started⟩ | ⟨different, present⟩
    · rw [same, ← started]
      exact ⟨moves.named, moves.new⟩
    · obtain ⟨taken, runs⟩ := sound.running proc present busy
      exact ⟨taken, moves.others proc.code taken different .session runs⟩

/-- Only a session has a process. -/
theorem Lists.Sound.proc_code_ne {lists : Lists} (sound : lists.Sound) {code : Int64}
    {phase : Phase} (held : lists.At code phase) (waits : phase ≠ .session)
    {proc : RepeaterProcInfo} (member : proc ∈ lists.repeaterProcs) (busy : proc ≠ .zero) :
    proc.code ≠ code := by
  intro same
  have runs := (sound.running proc member busy).2
  rw [same] at runs
  exact waits (held.unique runs)

/-- The outcome of an input: nothing, or a step of one code. -/
def Effect (before : Lists) (outcome : Lists × List RepeaterEvent) : Prop :=
  outcome = (before, []) ∨
    outcome.1.Sound ∧ ∃ code phase next, Moves before code outcome.2 outcome.1 phase next

/-! ### Connections -/

section Connections

variable {config : Config} {lists : Lists} {now : Int64} {code other : Int64}
  {peerIp : AddrParts} {pid : Int32} {phase : Phase}

theorem forkRepeater_servers : (forkRepeater lists code pid).servers = lists.servers := by
  unfold forkRepeater
  split <;> rfl

theorem forkRepeater_viewers : (forkRepeater lists code pid).viewers = lists.viewers := by
  unfold forkRepeater
  split <;> rfl

/-- Both ends of a code are made active and its process is recorded. -/
theorem at_joined (server : entry code lists.servers ≠ none)
    (viewer : entry code lists.viewers ≠ none) :
    (forkRepeater (setServerActive (setViewerActive lists code) code) code pid).At code
      .session := by
  obtain ⟨serverActive, serverHeld⟩ := Option.ne_none_iff_exists'.mp server
  obtain ⟨viewerActive, viewerHeld⟩ := Option.ne_none_iff_exists'.mp viewer
  constructor
  · rw [forkRepeater_servers]
    change entry code (activateInfo code lists.servers) = some true
    rw [entry_activateInfo, if_pos rfl, serverHeld, Option.map_some]
  · rw [forkRepeater_viewers]
    change entry code (activateInfo code lists.viewers) = some true
    rw [entry_activateInfo, if_pos rfl, viewerHeld, Option.map_some]

/-- Joining two ends leaves the phases of other codes. -/
theorem at_joined_other (different : other ≠ code) (held : lists.At other phase) :
    (forkRepeater (setServerActive (setViewerActive lists code) code) code pid).At other
      phase := by
  constructor
  · rw [forkRepeater_servers]
    change entry other (activateInfo code lists.servers) = phase.server
    rw [entry_activateInfo, if_neg different, held.server]
  · rw [forkRepeater_viewers]
    change entry other (activateInfo code lists.viewers) = phase.viewer
    rw [entry_activateInfo, if_neg different, held.viewer]

/-- The process that is recorded is the only one with its code. -/
theorem procs_forkRepeater (pid : Int32) (apart : Apart RepeaterProcInfo.code 0 lists.repeaterProcs)
    (fresh : ∀ proc ∈ lists.repeaterProcs, proc.code ≠ code) :
    Apart RepeaterProcInfo.code 0 (forkRepeater lists code pid).repeaterProcs ∧
      ∀ proc ∈ (forkRepeater lists code pid).repeaterProcs,
        proc ∈ lists.repeaterProcs ∨ proc.code = code := by
  unfold forkRepeater
  split
  · exact ⟨apart, fun proc member => Or.inl member⟩
  · constructor
    · apply apart.updateFirst
      intro proc member hit
      exact Or.inr (Or.inr fresh)
    · intro proc member
      rcases mem_updateFirst member with kept | ⟨old, present, hit, rfl⟩
      · exact Or.inl kept
      · exact Or.inr rfl

/-- An entry of one code has come or gone; the processes are the same. -/
structure Touches (before : Lists) (code : Int64) (after : Lists) : Prop where
  servers_apart : Apart RepeaterInfo.code 0 after.servers
  viewers_apart : Apart RepeaterInfo.code 0 after.viewers
  procs : after.repeaterProcs = before.repeaterProcs
  others : ∀ other ≠ 0, other ≠ code → ∀ phase, before.At other phase → after.At other phase

/-- A new viewer touches its own code alone. -/
theorem touches_addViewer {viewers : List RepeaterInfo} {index : Nat} (sound : lists.Sound)
    (added : addInfo code peerIp now lists.viewers = some (index, viewers))
    (absent : entry code lists.viewers = none) :
    Touches lists code { lists with viewers := viewers } where
  servers_apart := sound.servers_apart
  viewers_apart := apart_addInfo sound.viewers_apart added absent
  procs := rfl
  others other taken different phase held := by
    refine ⟨held.server, ?_⟩
    change entry other viewers = phase.viewer
    rw [entry_addInfo added absent taken, if_neg different, held.viewer]

/-- A new server touches its own code alone. -/
theorem touches_addServer {servers : List RepeaterInfo} {index : Nat} (sound : lists.Sound)
    (added : addInfo code peerIp now lists.servers = some (index, servers))
    (absent : entry code lists.servers = none) :
    Touches lists code { lists with servers := servers } where
  servers_apart := apart_addInfo sound.servers_apart added absent
  viewers_apart := sound.viewers_apart
  procs := rfl
  others other taken different phase held := by
    refine ⟨?_, held.viewer⟩
    change entry other servers = phase.server
    rw [entry_addInfo added absent taken, if_neg different, held.server]

/-- Removing a viewer touches its own code alone. -/
theorem touches_removeViewer (sound : lists.Sound) (named : code ≠ 0) :
    Touches lists code (removeViewerList lists code) where
  servers_apart := sound.servers_apart
  viewers_apart := apart_removeInfo sound.viewers_apart
  procs := rfl
  others other taken different phase held := by
    refine ⟨held.server, ?_⟩
    change entry other (removeInfo code lists.viewers) = phase.viewer
    rw [entry_removeInfo sound.viewers_apart named taken, if_neg different, held.viewer]

/-- Removing a server touches its own code alone. -/
theorem touches_removeServer (sound : lists.Sound) (named : code ≠ 0) :
    Touches lists code (removeServerList lists code) where
  servers_apart := apart_removeInfo sound.servers_apart
  viewers_apart := sound.viewers_apart
  procs := rfl
  others other taken different phase held := by
    refine ⟨?_, held.viewer⟩
    change entry other (removeInfo code lists.servers) = phase.server
    rw [entry_removeInfo sound.servers_apart named taken, if_neg different, held.server]

variable {middle : Lists} {events : List RepeaterEvent} {next : Phase}

/-- A code that is not in a session takes a step to another phase without one. -/
theorem Touches.effect (touches : Touches lists code middle) (sound : lists.Sound)
    (named : code ≠ 0) (held : lists.At code phase) (waits : phase ≠ .session)
    (new : middle.At code next) (own : ∀ event ∈ events, event.code = code)
    (taken : phase.Step (events.map RepeaterEvent.eventNum) next) :
    Effect lists (middle, events) := by
  have moves : Moves lists code events middle phase next :=
    ⟨named, held, new, taken, own, touches.others⟩
  refine Or.inr ⟨?_, code, phase, next, moves⟩
  apply moves.sound sound touches.servers_apart touches.viewers_apart
  · rw [touches.procs]
    exact sound.procs_apart
  · intro proc member busy
    rw [touches.procs] at member
    exact Or.inr ⟨sound.proc_code_ne held waits member busy, member⟩

/-- The second end of a code has come: both are in a session. -/
theorem Touches.joined_effect (touches : Touches lists code middle) (sound : lists.Sound)
    (named : code ≠ 0) (held : lists.At code phase) (waits : phase ≠ .session)
    (server : entry code middle.servers ≠ none) (viewer : entry code middle.viewers ≠ none)
    (own : ∀ event ∈ events, event.code = code)
    (taken : phase.Step (events.map RepeaterEvent.eventNum) .session) :
    Effect lists
      (forkRepeater (setServerActive (setViewerActive middle code) code) code pid, events) := by
  have fresh : ∀ proc ∈ lists.repeaterProcs, proc.code ≠ code := by
    intro proc member
    by_cases busy : proc = .zero
    · rw [busy]
      exact Ne.symm named
    · exact sound.proc_code_ne held waits member busy
  let active : Lists := setServerActive (setViewerActive middle code) code
  have procs : active.repeaterProcs = lists.repeaterProcs := touches.procs
  have apart : Apart RepeaterProcInfo.code 0 active.repeaterProcs := procs ▸ sound.procs_apart
  have freshProc : ∀ proc ∈ active.repeaterProcs, proc.code ≠ code := procs ▸ fresh
  obtain ⟨procsApart, procsOf⟩ := procs_forkRepeater pid apart freshProc
  have moves : Moves lists code events
      (forkRepeater (setServerActive (setViewerActive middle code) code) code pid) phase
      .session :=
    { named := named
      old := held
      new := at_joined server viewer
      taken := taken
      own := own
      others := fun other taken different phase held =>
        at_joined_other different (touches.others other taken different phase held) }
  refine Or.inr ⟨?_, code, phase, .session, moves⟩
  apply moves.sound sound
  · rw [forkRepeater_servers]
    exact apart_activateInfo touches.servers_apart
  · rw [forkRepeater_viewers]
    exact apart_activateInfo touches.viewers_apart
  · exact procsApart
  · intro proc member busy
    rcases procsOf proc member with old | started
    · have present : proc ∈ lists.repeaterProcs := procs ▸ old
      exact Or.inr ⟨fresh proc present, present⟩
    · exact Or.inl ⟨started, rfl⟩

/-- A viewer that is accepted takes a step of its code. -/
theorem acceptViewer_effect (sound : lists.Sound) (named : code ≠ 0)
    (absent : entry code lists.viewers = none) :
    Effect lists (acceptViewer config lists now code peerIp pid) := by
  unfold acceptViewer addViewerList
  cases added : addInfo code peerIp now lists.viewers with
  | none => exact Or.inl rfl
  | some result =>
      obtain ⟨viewerInd, viewers⟩ := result
      have touches := touches_addViewer sound added absent
      have viewer : entry code viewers = some false := by
        rw [entry_addInfo added absent named, if_pos rfl]
      obtain ⟨phase, held⟩ := sound.phases code named
      have alone := absent.symm.trans held.viewer
      simp only [Option.map_some]
      cases found : findServerList { lists with viewers := viewers } code with
      | none =>
          have server : entry code lists.servers = none := findInfo_eq_none.mp found
          have idle : phase = .idle := Phase.eq_of_ends (held.server.symm.trans server) alone.symm
          subst idle
          have new : Lists.At { lists with viewers := viewers } code .viewerWaits :=
            ⟨server, viewer⟩
          refine touches.effect sound named held (by decide) new ?_ .viewerFirst
          exact List.forall_mem_singleton.mpr rfl
      | some serverInd =>
          have server : entry code lists.servers ≠ none := entry_ne_none_of_found found
          have waits : phase = .serverWaits :=
            Phase.eq_serverWaits (held.server ▸ server) alone.symm
          subst waits
          refine touches.joined_effect sound named held (by decide) server ?_ ?_ .viewerJoins
          · rw [viewer]
            exact Option.some_ne_none false
          · exact List.forall_mem_cons.mpr ⟨rfl, List.forall_mem_singleton.mpr rfl⟩

/-- A server that is accepted takes a step of its code. -/
theorem acceptServer_effect (sound : lists.Sound) (named : code ≠ 0)
    (absent : entry code lists.servers = none) :
    Effect lists (acceptServer config lists now code peerIp pid) := by
  unfold acceptServer addServerList
  cases added : addInfo code peerIp now lists.servers with
  | none => exact Or.inl rfl
  | some result =>
      obtain ⟨serverInd, servers⟩ := result
      have touches := touches_addServer sound added absent
      have server : entry code servers = some false := by
        rw [entry_addInfo added absent named, if_pos rfl]
      obtain ⟨phase, held⟩ := sound.phases code named
      have alone := absent.symm.trans held.server
      simp only [Option.map_some]
      cases found : findViewerList { lists with servers := servers } code with
      | none =>
          have viewer : entry code lists.viewers = none := findInfo_eq_none.mp found
          have idle : phase = .idle := Phase.eq_of_ends alone.symm (held.viewer.symm.trans viewer)
          subst idle
          have new : Lists.At { lists with servers := servers } code .serverWaits :=
            ⟨server, viewer⟩
          refine touches.effect sound named held (by decide) new ?_ .serverFirst
          exact List.forall_mem_singleton.mpr rfl
      | some viewerInd =>
          have viewer : entry code lists.viewers ≠ none := entry_ne_none_of_found found
          have waits : phase = .viewerWaits :=
            Phase.eq_viewerWaits alone.symm (held.viewer ▸ viewer)
          subst waits
          refine touches.joined_effect sound named held (by decide) ?_ viewer ?_ .serverJoins
          · rw [server]
            exact Option.some_ne_none false
          · exact List.forall_mem_cons.mpr ⟨rfl, List.forall_mem_singleton.mpr rfl⟩

/-- No id is read as the code of free entries. -/
theorem parseId_ne_zero (idCode : List Char) : parseId idCode ≠ 0 := by
  unfold parseId
  split
  · decide
  · dsimp only
    split
    · decide
    · split
      · decide
      · next positive =>
          intro zero
          apply positive
          have value := congrArg Int64.toInt zero
          rw [Int32.toInt_toInt64] at value
          rw [Int32.le_iff_toInt_le, value]
          decide

/-- An accepted connection takes a step of one code or changes nothing. -/
theorem acceptConnection_effect {connectionFrom : ConnectionFrom} {id : List Char}
    (sound : lists.Sound) :
    Effect lists (acceptConnection config lists now connectionFrom id peerIp pid) := by
  unfold acceptConnection
  split
  · exact Or.inl rfl
  · dsimp only
    split
    · exact Or.inl rfl
    · split
      · exact Or.inl rfl
      · next fresh =>
          have absent := not_not.mp fresh
          split
          · exact Or.inl rfl
          · cases connectionFrom with
            | viewer =>
                exact acceptViewer_effect sound (parseId_ne_zero id) (findInfo_eq_none.mp absent)
            | server =>
                exact acceptServer_effect sound (parseId_ne_zero id) (findInfo_eq_none.mp absent)

end Connections

/-! ### Removals and ends of sessions -/

section Removals

variable {config : Config} {lists : Lists} {now : Int64}

/-- An entry with a code is there. -/
theorem getElem?_of_code_ne {infos : List RepeaterInfo} {index : Nat}
    (named : (infos.getD index .zero).code ≠ 0) :
    infos[index]? = some (infos.getD index .zero) := by
  rw [List.getD_eq_getElem?_getD] at named ⊢
  cases found : infos[index]? with
  | none =>
      rw [found] at named
      exact (named rfl).elim
  | some info => rfl

/-- An entry that waits is what its table holds for its code. -/
theorem entry_of_waiting {infos : List RepeaterInfo} {index : Nat}
    (apart : Apart RepeaterInfo.code 0 infos) (named : (infos.getD index .zero).code ≠ 0)
    (waits : (infos.getD index .zero).active = false) :
    entry (infos.getD index .zero).code infos = some false := by
  have member : infos.getD index .zero ∈ infos :=
    List.mem_of_getElem? (getElem?_of_code_ne named)
  rw [entry, stored_of_mem apart member named, Option.map_some, waits]

/-- What waits is an entry with a code that is not active. -/
theorem isExistingConnectionInactive_eq_true {info : RepeaterInfo} :
    isExistingConnectionInactive info.active (info.code ≠ 0) = true ↔
      info.code ≠ 0 ∧ info.active = false := by
  simp only [isExistingConnectionInactive, Bool.and_eq_true, decide_eq_true_eq, ne_eq,
    Bool.not_eq_eq_eq_not, Bool.not_true]

/-- A removed entry is a step of its code. -/
theorem connectionRemover_effect {connectionFrom : ConnectionFrom} {index : Nat}
    {peerDisconnected : Bool} (sound : lists.Sound) :
    Effect lists (connectionRemover config lists now connectionFrom index peerDisconnected) := by
  cases connectionFrom with
  | viewer =>
      unfold connectionRemover
      dsimp only
      split
      · next removed =>
          obtain ⟨named, waits⟩ := isExistingConnectionInactive_eq_true.mp removed.1
          have viewer := entry_of_waiting sound.viewers_apart named waits
          obtain ⟨phase, held⟩ := sound.phases _ named
          have alone := viewer.symm.trans held.viewer
          have waiting : phase = .viewerWaits := by cases phase <;> first | rfl | cases alone
          subst waiting
          have new : (removeViewerList lists (lists.viewers.getD index .zero).code).At
              (lists.viewers.getD index .zero).code .idle := by
            refine ⟨held.server, ?_⟩
            change entry _ (removeInfo _ lists.viewers) = none
            rw [entry_removeInfo sound.viewers_apart named named, if_pos rfl]
          apply (touches_removeViewer sound named).effect sound named held (by decide) new
          · exact List.forall_mem_singleton.mpr rfl
          · exact .viewerRemoved
      · exact Or.inl rfl
  | server =>
      unfold connectionRemover
      dsimp only
      split
      · next removed =>
          obtain ⟨named, waits⟩ := isExistingConnectionInactive_eq_true.mp removed.1
          have server := entry_of_waiting sound.servers_apart named waits
          obtain ⟨phase, held⟩ := sound.phases _ named
          have alone := server.symm.trans held.server
          have waiting : phase = .serverWaits := by cases phase <;> first | rfl | cases alone
          subst waiting
          have new : (removeServerList lists (lists.servers.getD index .zero).code).At
              (lists.servers.getD index .zero).code .idle := by
            refine ⟨?_, held.viewer⟩
            change entry _ (removeInfo _ lists.servers) = none
            rw [entry_removeInfo sound.servers_apart named named, if_pos rfl]
          apply (touches_removeServer sound named).effect sound named held (by decide) new
          · exact List.forall_mem_singleton.mpr rfl
          · exact .serverRemoved
      · exact Or.inl rfl

/-- The end of a relay that closes its session does nothing, or is a step of one code. -/
theorem cleanUpAfterRepeaterProcExit_effect {exitCode pid : Int32} (sound : lists.Sound)
    (closes : exitCode ∈ closingExitCodes) (child : 0 < pid) :
    Effect lists (cleanUpAfterRepeaterProcExit config lists now exitCode pid) := by
  unfold cleanUpAfterRepeaterProcExit
  split
  · exact Or.inl rfl
  · next proc found =>
      have member : proc ∈ lists.repeaterProcs := List.mem_of_find?_eq_some found
      have named : proc.pid = pid := by simpa using List.find?_some found
      have busy : proc ≠ .zero := by
        intro same
        rw [← named, same] at child
        exact absurd child (by decide)
      obtain ⟨taken, runs⟩ := sound.running proc member busy
      split
      · next serverInd viewerInd serverFound viewerFound =>
          rw [if_pos closes]
          have server : entry proc.code (removeInfo proc.code lists.servers) = none := by
            rw [entry_removeInfo sound.servers_apart taken taken, if_pos rfl]
          have viewer : entry proc.code (removeInfo proc.code lists.viewers) = none := by
            rw [entry_removeInfo sound.viewers_apart taken taken, if_pos rfl]
          let after : Lists := removeViewerList
            (removeServerList (removeRepeaterProcList lists pid) proc.code) proc.code
          have others : ∀ other ≠ 0, other ≠ proc.code → ∀ phase, lists.At other phase →
              after.At other phase := by
            intro other otherTaken different phase held
            constructor
            · change entry other (removeInfo proc.code lists.servers) = phase.server
              rw [entry_removeInfo sound.servers_apart taken otherTaken, if_neg different,
                held.server]
            · change entry other (removeInfo proc.code lists.viewers) = phase.viewer
              rw [entry_removeInfo sound.viewers_apart taken otherTaken, if_neg different,
                held.viewer]
          have moves : Moves lists proc.code
              [sessionEvent config now .viewerServerSessionEnd lists serverInd viewerInd
                proc.code (connModeOf proc.code)] after .session .idle :=
            { named := taken
              old := runs
              new := ⟨server, viewer⟩
              taken := .ended
              own := List.forall_mem_singleton.mpr rfl
              others := others }
          refine Or.inr ⟨?_, proc.code, .session, .idle, moves⟩
          apply moves.sound sound
          · exact apart_removeInfo sound.servers_apart
          · exact apart_removeInfo sound.viewers_apart
          · apply sound.procs_apart.updateFirst
            intro proc member hit
            exact Or.inl rfl
          · -- The only process with the code is the one that has exited.
            have freed : ∀ proc : RepeaterProcInfo,
                RepeaterProcInfo.code ((fun _ => RepeaterProcInfo.zero) proc) = 0 := fun _ => rfl
            have gone := stored_clear_found sound.procs_apart found taken freed
            intro other present otherBusy
            rcases mem_updateFirst present with kept | ⟨old, -, -, same⟩
            · exact Or.inr ⟨stored_eq_none.mp gone other present, kept⟩
            · exact (otherBusy same).elim
      · exact Or.inl rfl

end Removals

/-! ### Runs -/

section Runs

variable {config : Config} {lists : Lists} {state : State} {inputs : List (Int64 × Input)}
  {code : Int64}

/-- An input changes nothing, or lets one code take a step. -/
theorem handle_effect (config : Config) (now : Int64) {input : Input} (sound : lists.Sound)
    (legal : input.Legal) :
    Effect lists (handle config lists now input) := by
  cases input with
  | acceptConnection connectionFrom id peerIp pid => exact acceptConnection_effect sound
  | connectionRemover connectionFrom index peerDisconnected =>
      exact connectionRemover_effect sound
  | cleanUpAfterRepeaterProcExit exitCode pid =>
      exact cleanUpAfterRepeaterProcExit_effect sound legal.1 legal.2

/-- The tables are sound, and each code is in a phase its events lead to. -/
structure State.Refines (state : State) : Prop where
  sound : state.lists.Sound
  reached : ∀ code ≠ 0, ∃ phase, state.lists.At code phase ∧
    Phase.Reached (numbersOf code state.sent) phase

theorem refines_start (config : Config) : (start config).Refines where
  sound := sound_cleanLists config.maxSessions
  reached _ named := ⟨.idle, at_cleanLists config.maxSessions named, .start⟩

/-- Each call refines a step of one code, or none. -/
theorem refines_step {input : Int64 × Input} (legal : input.2.Legal) (refines : state.Refines) :
    (step config state input).Refines := by
  rcases handle_effect config input.1 refines.sound legal with
    kept | ⟨sound, code, phase, next, moves⟩
  · have same : step config state input = state := by
      simp only [step, kept, List.append_nil]
    rw [same]
    exact refines
  · refine ⟨sound, fun other taken => ?_⟩
    obtain ⟨earlier, held, reached⟩ := refines.reached other taken
    rw [step_lists, step_sent, numbersOf_append]
    by_cases same : other = code
    · subst same
      cases held.unique moves.old
      have numbers : numbersOf other (handle config state.lists input.1 input.2).2 =
          (handle config state.lists input.1 input.2).2.map RepeaterEvent.eventNum := by
        rw [numbersOf, List.filter_eq_self.mpr]
        intro event member
        exact decide_eq_true (moves.own event member)
      rw [numbers]
      exact ⟨next, moves.new, reached.step moves.taken⟩
    · rw [numbersOf_eq_nil moves.own same, List.append_nil]
      exact ⟨earlier, moves.others other taken same earlier held, reached⟩

/-- After a run from empty tables each code is in the phase its events lead to. -/
theorem exists_phase (config : Config) (legal : ∀ input ∈ inputs, input.2.Legal)
    (named : code ≠ 0) :
    ∃ phase, (run (step config) (start config) inputs).lists.At code phase ∧
      Phase.Reached (numbersOf code (run (step config) (start config) inputs).sent) phase := by
  have along : Along (step config) (fun _ input => input.2.Legal) (start config) inputs :=
    .of_forall fun _ input member => legal input member
  have refines := along.run_invariant State.Refines
    (fun _ _ legal refines => refines_step legal refines) (refines_start config)
  exact refines.reached code named

end Runs

end Repeater
