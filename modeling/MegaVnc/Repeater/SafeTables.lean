import MegaVnc.Repeater.Descriptors

/-! # The tables beside their sockets

With Mode 1 a code may have one end only that is active. What is left of the tables'
invariant is enough to say which entry holds which socket: an entry holds its socket
as long as it waits.
-/

namespace Repeater

open Slots Transition

/-- The other end. -/
def ConnectionFrom.other : ConnectionFrom → ConnectionFrom
  | .viewer => .server
  | .server => .viewer

/-! ### One table -/

/-- The socket of an entry that waits. -/
def heldAt (infos : List RepeaterInfo) (sockets : List Nat) (index : Nat) : Option Nat :=
  if (infos.getD index .zero).code ≠ 0 ∧ (infos.getD index .zero).active = false then
    some (sockets.getD index 0)
  else none

section OneTable

variable {infos next : List RepeaterInfo} {sockets : List Nat} {code : Int64} {peerIp : AddrParts}
  {now : Int64} {index socket : Nat}

/-- An entry that is free or active holds no descriptor. -/
theorem heldAt_eq_none (free : (infos.getD index .zero).code = 0 ∨
    (infos.getD index .zero).active = true) : heldAt infos sockets index = none := by
  refine if_neg fun waits => ?_
  rcases free with free | active
  · exact waits.1 free
  · rw [waits.2] at active
    cases active

/-- A change that leaves no waiting entry lets a socket go. -/
theorem heldAt_updateFirst {hit : RepeaterInfo → Bool} {change : RepeaterInfo → RepeaterInfo}
    (found : infos.findIdx? hit = some index)
    (frees : ∀ info, (change info).code = 0 ∨ (change info).active = true) :
    heldAt (updateFirst hit change infos) sockets =
      Function.update (heldAt infos sockets) index none := by
  funext position
  by_cases same : position = index
  · subst same
    rw [Function.update_self]
    apply heldAt_eq_none
    rw [getD_updateFirst found, if_pos rfl]
    exact frees _
  · rw [Function.update_of_ne same, heldAt, getD_updateFirst found, if_neg same]
    rfl

theorem heldAt_removeInfo (found : findInfo code infos = some index) :
    heldAt (removeInfo code infos) sockets = Function.update (heldAt infos sockets) index none :=
  heldAt_updateFirst found fun _ => Or.inl rfl

theorem heldAt_activateInfo (found : findInfo code infos = some index) :
    heldAt (activateInfo code infos) sockets = Function.update (heldAt infos sockets) index none :=
  heldAt_updateFirst found fun _ => Or.inr rfl

/-- Activating an entry leaves all codes. -/
theorem code_activateInfo (found : findInfo code infos = some index) (position : Nat) :
    ((activateInfo code infos).getD position .zero).code = (infos.getD position .zero).code := by
  rw [activateInfo, getD_updateFirst found]
  split
  · next same => rw [same]
  · rfl

/-- A new entry was free. -/
theorem addInfo_found (added : addInfo code peerIp now infos = some (index, next)) :
    (infos.findIdx? fun info => info.code = 0) = some index ∧
      next = updateFirst (fun info => info.code = 0)
        (fun _ => { code := code, timeStamp := now.toUInt64, peerIp := peerIp, active := false })
        infos := by
  simp only [addInfo, Option.map_eq_some_iff, Prod.mk.injEq] at added
  obtain ⟨position, found, rfl, rfl⟩ := added
  exact ⟨found, rfl⟩

/-- The entry that is taken for a new code held nothing. -/
theorem heldAt_of_added (added : addInfo code peerIp now infos = some (index, next)) :
    heldAt infos sockets index = none := by
  obtain ⟨-, slot, there, free⟩ := find?_eq_getElem? (addInfo_found added).1
  apply heldAt_eq_none
  rw [List.getD_eq_getElem?_getD, there]
  exact Or.inl (of_decide_eq_true free)

theorem lt_of_added (added : addInfo code peerIp now infos = some (index, next)) :
    index < infos.length := by
  obtain ⟨-, slot, there, -⟩ := find?_eq_getElem? (addInfo_found added).1
  exact (List.getElem?_eq_some_iff.mp there).1

/-- Only the entry that is taken changes. -/
theorem getD_addInfo (added : addInfo code peerIp now infos = some (index, next))
    (position : Nat) : next.getD position .zero =
      if position = index then
        { code := code, timeStamp := now.toUInt64, peerIp := peerIp, active := false }
      else infos.getD position .zero := by
  obtain ⟨found, rfl⟩ := addInfo_found added
  rw [getD_updateFirst found]

/-- A new entry that waits holds the descriptor of its connection. -/
theorem heldAt_addInfo (added : addInfo code peerIp now infos = some (index, next))
    (named : code ≠ 0) (size : sockets.length = infos.length) :
    heldAt next (sockets.set index socket) =
      Function.update (heldAt infos sockets) index (some socket) := by
  have inside : index < sockets.length := size ▸ lt_of_added added
  funext position
  by_cases same : position = index
  · subst same
    have placed : (sockets.set position socket).getD position 0 = socket := by
      rw [List.getD_eq_getElem?_getD, List.getElem?_set_self inside]
      rfl
    rw [heldAt, getD_addInfo added, if_pos rfl, if_pos ⟨named, rfl⟩, Function.update_self, placed]
  · have kept : (sockets.set index socket).getD position 0 = sockets.getD position 0 := by
      rw [List.getD_eq_getElem?_getD, List.getElem?_set_ne (Ne.symm same),
        ← List.getD_eq_getElem?_getD]
    rw [heldAt, getD_addInfo added, if_neg same, kept, Function.update_of_ne same]
    rfl

/-- The new entry is found under its code. -/
theorem findInfo_addInfo (apart : Apart RepeaterInfo.code 0 infos)
    (added : addInfo code peerIp now infos = some (index, next))
    (absent : entry code infos = none) (named : code ≠ 0) : findInfo code next = some index := by
  have there : next[index]? =
      some { code := code, timeStamp := now.toUInt64, peerIp := peerIp, active := false } := by
    obtain ⟨found, rfl⟩ := addInfo_found added
    obtain ⟨-, slot, there, -⟩ := find?_eq_getElem? found
    rw [getElem?_updateFirst_of_found found, if_pos rfl, there]
    rfl
  exact findIdx?_of_apart (apart_addInfo apart added absent) there named

/-- An entry that is put in as active holds nothing. -/
theorem heldAt_addInfo_activateInfo (apart : Apart RepeaterInfo.code 0 infos)
    (added : addInfo code peerIp now infos = some (index, next))
    (absent : entry code infos = none) (named : code ≠ 0)
    (size : sockets.length = infos.length) :
    heldAt (activateInfo code next) (sockets.set index socket) = heldAt infos sockets := by
  rw [heldAt_activateInfo (findInfo_addInfo apart added absent named),
    heldAt_addInfo added named size, Function.update_idem, ← heldAt_of_added added,
    Function.update_eq_self]

/-- An entry that is activated at once is in a session. -/
theorem entry_addInfo_activateInfo
    (added : addInfo code peerIp now infos = some (index, next))
    (absent : entry code infos = none) (named : code ≠ 0) :
    entry code (activateInfo code next) = some true := by
  rw [entry_activateInfo, if_pos rfl, entry_addInfo added absent named, if_pos rfl]
  rfl

/-- The entry that is found. -/
theorem entry_of_found (found : findInfo code infos = some index) :
    (infos.getD index .zero).code = code ∧
      entry code infos = some (infos.getD index .zero).active := by
  obtain ⟨same, slot, there, hits⟩ := find?_eq_getElem? found
  rw [List.getD_eq_getElem?_getD, there]
  refine ⟨of_decide_eq_true hits, ?_⟩
  rw [entry, stored, same, there]
  rfl

/-- An entry that waits holds its descriptor. -/
theorem heldAt_of_found (found : findInfo code infos = some index)
    (waits : entry code infos = some false) (named : code ≠ 0) :
    heldAt infos sockets index = some (sockets.getD index 0) := by
  obtain ⟨own, held⟩ := entry_of_found found
  rw [waits, Option.some.injEq] at held
  exact if_pos ⟨own ▸ named, held.symm⟩

/-- One that is in a session holds none. -/
theorem heldAt_of_active (found : findInfo code infos = some index)
    (active : entry code infos = some true) : heldAt infos sockets index = none := by
  obtain ⟨-, held⟩ := entry_of_found found
  rw [active, Option.some.injEq] at held
  exact heldAt_eq_none (Or.inr held.symm)

theorem found_of_waits (apart : Apart RepeaterInfo.code 0 infos)
    (named : (infos.getD index .zero).code ≠ 0) :
    findInfo (infos.getD index .zero).code infos = some index :=
  findIdx?_of_apart apart (getElem?_of_code_ne named) named

/-- What holds a descriptor is an entry with a code that waits. -/
theorem waits_of_heldAt (holds : heldAt infos sockets index = some socket) :
    (infos.getD index .zero).code ≠ 0 ∧ (infos.getD index .zero).active = false ∧
      sockets.getD index 0 = socket := by
  unfold heldAt at holds
  split at holds
  · next waits => exact ⟨waits.1, waits.2, Option.some.inj holds⟩
  · cases holds

end OneTable

/-! ### Both tables -/

theorem ConnectionFrom.eq_or_other (first second : ConnectionFrom) :
    first = second ∨ first = second.other := by
  cases first <;> cases second <;> decide

theorem ConnectionFrom.other_ne (connectionFrom : ConnectionFrom) :
    connectionFrom.other ≠ connectionFrom := by
  cases connectionFrom <;> decide

/-- Replace a table. -/
def Lists.put (lists : Lists) (connectionFrom : ConnectionFrom) (infos : List RepeaterInfo) :
    Lists :=
  match connectionFrom with
  | .viewer => { lists with viewers := infos }
  | .server => { lists with servers := infos }

/-- The tables whatever Mode 1 has left in them: an end of a positive code is active
exactly when the other one is, and each recorded process runs an active code. -/
structure Lists.Safe (lists : Lists) : Prop where
  apart : ∀ connectionFrom, Apart RepeaterInfo.code 0 (lists.infos connectionFrom)
  procs_apart : Apart RepeaterProcInfo.code 0 lists.repeaterProcs
  both : ∀ code > 0, ∀ connectionFrom, entry code (lists.infos connectionFrom) = some true →
    entry code (lists.infos connectionFrom.other) = some true
  running : ∀ proc ∈ lists.repeaterProcs, proc ≠ .zero → proc.code ≠ 0 ∧
    ∀ connectionFrom, entry proc.code (lists.infos connectionFrom) = some true

/-- Whether a table has a free entry. -/
def hasRoom (infos : List RepeaterInfo) : Bool :=
  infos.any fun info => info.code = 0

/-- The descriptor that stays open when only one table has room for its end of a
session of Mode 1. -/
def Lists.leftOpen (lists : Lists) (serverSocket viewerSocket : Nat) : Set Nat :=
  match hasRoom lists.viewers, hasRoom lists.servers with
  | true, false => {viewerSocket}
  | false, true => {serverSocket}
  | _, _ => ∅

section BothTables

variable {lists after : Lists} {connectionFrom : ConnectionFrom} {infos next : List RepeaterInfo}
  {code : Int64} {peerIp : AddrParts} {now : Int64} {index : Nat} {pid : Int32}

@[simp] theorem infos_put_self : (lists.put connectionFrom infos).infos connectionFrom = infos := by
  cases connectionFrom <;> rfl

@[simp] theorem infos_put_other : (lists.put connectionFrom infos).infos connectionFrom.other =
    lists.infos connectionFrom.other := by
  cases connectionFrom <;> rfl

@[simp] theorem repeaterProcs_put :
    (lists.put connectionFrom infos).repeaterProcs = lists.repeaterProcs := by
  cases connectionFrom <;> rfl

/-- Empty tables are safe. -/
theorem safe_cleanLists (maxSessions : Nat) : (cleanLists maxSessions).Safe where
  apart connectionFrom := by
    cases connectionFrom <;> exact apart_replicate maxSessions RepeaterInfo.zero rfl
  procs_apart := apart_replicate maxSessions RepeaterProcInfo.zero rfl
  both code positive connectionFrom active := by
    have absent : entry code (List.replicate maxSessions RepeaterInfo.zero) ≠ some true := by
      rw [entry_eq_none.mpr]
      · decide
      · intro info member same
        rw [List.eq_of_mem_replicate member] at same
        rw [← same] at positive
        exact absurd positive (by decide)
    cases connectionFrom with
    | viewer => exact (absent active).elim
    | server => exact (absent active).elim
  running _ member busy := (busy (List.eq_of_mem_replicate member)).elim

/-- A code without a process changes its entries. -/
theorem Lists.Safe.touch (safe : lists.Safe)
    (apart : ∀ connectionFrom, Apart RepeaterInfo.code 0 (after.infos connectionFrom))
    (procs : after.repeaterProcs = lists.repeaterProcs)
    (others : ∀ other ≠ 0, other ≠ code → ∀ connectionFrom,
      entry other (after.infos connectionFrom) = entry other (lists.infos connectionFrom))
    (own : 0 < code → ∀ connectionFrom, entry code (after.infos connectionFrom) = some true →
      entry code (after.infos connectionFrom.other) = some true)
    (idle : ∀ proc ∈ lists.repeaterProcs, proc.code ≠ code) : after.Safe where
  apart := apart
  procs_apart := procs ▸ safe.procs_apart
  both other positive connectionFrom active := by
    by_cases same : other = code
    · subst same
      exact own positive connectionFrom active
    · have named : other ≠ 0 := by
        rintro rfl
        exact absurd positive (by decide)
      rw [others other named same] at active ⊢
      exact safe.both other positive connectionFrom active
  running proc member busy := by
    rw [procs] at member
    obtain ⟨named, active⟩ := safe.running proc member busy
    exact ⟨named, fun connectionFrom =>
      (others proc.code named (idle proc member) connectionFrom).trans (active connectionFrom)⟩

/-- The processes run active codes only. -/
theorem Lists.Safe.idle (safe : lists.Safe) (named : code ≠ 0)
    (waits : entry code (lists.infos connectionFrom) ≠ some true) :
    ∀ proc ∈ lists.repeaterProcs, proc.code ≠ code := by
  rintro proc member rfl
  by_cases busy : proc = .zero
  · subst busy
    exact named rfl
  · exact waits ((safe.running proc member busy).2 connectionFrom)

/-- The entries of the other codes after a change of one table. -/
theorem entry_put {other : Int64}
    (same : entry other next = entry other (lists.infos connectionFrom))
    (side : ConnectionFrom) : entry other ((lists.put connectionFrom next).infos side) =
      entry other (lists.infos side) := by
  rcases side.eq_or_other connectionFrom with rfl | rfl
  · rw [infos_put_self, same]
  · rw [infos_put_other]

/-- A table whose codes are apart may be put. -/
theorem apart_put (safe : lists.Safe) (apart : Apart RepeaterInfo.code 0 next)
    (side : ConnectionFrom) :
    Apart RepeaterInfo.code 0 ((lists.put connectionFrom next).infos side) := by
  rcases side.eq_or_other connectionFrom with rfl | rfl
  · rw [infos_put_self]
    exact apart
  · rw [infos_put_other]
    exact safe.apart _

/-- One table changes for a code that is not active in it, nor afterwards. -/
theorem Lists.Safe.put (safe : lists.Safe) (named : code ≠ 0)
    (apart : Apart RepeaterInfo.code 0 next)
    (others : ∀ other ≠ 0, other ≠ code →
      entry other next = entry other (lists.infos connectionFrom))
    (before : entry code (lists.infos connectionFrom) ≠ some true)
    (later : 0 < code → entry code next ≠ some true) :
    (lists.put connectionFrom next).Safe := by
  refine safe.touch (apart_put safe apart) repeaterProcs_put
    (fun other taken different side => entry_put (others other taken different) side) ?_
    (safe.idle named before)
  intro positive side active
  rcases side.eq_or_other connectionFrom with rfl | rfl
  · rw [infos_put_self] at active
    exact (later positive active).elim
  · rw [infos_put_other] at active
    have back := safe.both code positive connectionFrom.other active
    have twice : connectionFrom.other.other = connectionFrom := by cases connectionFrom <;> rfl
    rw [twice] at back
    exact (before back).elim

/-- A new code that waits keeps the tables safe. -/
theorem safe_addInfo (safe : lists.Safe) (named : code ≠ 0)
    (added : addInfo code peerIp now (lists.infos connectionFrom) = some (index, next))
    (absent : entry code (lists.infos connectionFrom) = none) :
    (lists.put connectionFrom next).Safe := by
  refine safe.put named (apart_addInfo (safe.apart _) added absent) ?_ ?_ ?_
  · intro other taken different
    rw [entry_addInfo added absent taken, if_neg different]
  · rw [absent]
    exact Option.some_ne_none true |>.symm
  · intro _
    rw [entry_addInfo added absent named, if_pos rfl]
    decide

/-- Removing an entry that is not in a session keeps them safe. -/
theorem safe_removeInfo (safe : lists.Safe) (named : code ≠ 0)
    (waits : entry code (lists.infos connectionFrom) ≠ some true) :
    (lists.put connectionFrom (removeInfo code (lists.infos connectionFrom))).Safe := by
  refine safe.put named (apart_removeInfo (safe.apart _)) ?_ waits ?_
  · intro other taken different
    rw [entry_removeInfo (safe.apart _) named taken, if_neg different]
  · intro _
    rw [entry_removeInfo (safe.apart _) named named, if_pos rfl]
    decide

/-- A new entry of Mode 1 is active at once. -/
theorem safe_addInfo_activateInfo (safe : lists.Safe) (negative : code < 0)
    (added : addInfo code peerIp now (lists.infos connectionFrom) = some (index, next))
    (absent : entry code (lists.infos connectionFrom) = none) :
    (lists.put connectionFrom (activateInfo code next)).Safe := by
  have named : code ≠ 0 := by
    rintro rfl
    exact absurd negative (by decide)
  refine safe.put named (apart_activateInfo (apart_addInfo (safe.apart _) added absent)) ?_ ?_ ?_
  · intro other taken different
    rw [entry_activateInfo, if_neg different, entry_addInfo added absent taken, if_neg different]
  · rw [absent]
    exact Option.some_ne_none true |>.symm
  · intro positive
    exact (Int64.lt_irrefl (Int64.lt_trans negative positive)).elim

/-- A fork leaves the two tables. -/
theorem infos_forkRepeater (lists : Lists) (code : Int64) (pid : Int32)
    (connectionFrom : ConnectionFrom) :
    (forkRepeater lists code pid).infos connectionFrom = lists.infos connectionFrom := by
  cases connectionFrom with
  | viewer => exact forkRepeater_viewers
  | server => exact forkRepeater_servers

/-- Both ends of a code are made active and its process is recorded. -/
theorem safe_forkRepeater (pid : Int32) (safe : lists.Safe) (named : code ≠ 0)
    (active : ∀ connectionFrom, entry code (lists.infos connectionFrom) = some true)
    (idle : ∀ proc ∈ lists.repeaterProcs, proc.code ≠ code) :
    (forkRepeater lists code pid).Safe := by
  obtain ⟨apart, members⟩ := procs_forkRepeater pid safe.procs_apart idle
  refine ⟨fun connectionFrom => ?_, apart, fun other positive connectionFrom => ?_, ?_⟩
  · rw [infos_forkRepeater]
    exact safe.apart connectionFrom
  · rw [infos_forkRepeater, infos_forkRepeater]
    exact safe.both other positive connectionFrom
  · intro proc member busy
    rcases members proc member with old | same
    · obtain ⟨taken, runs⟩ := safe.running proc old busy
      refine ⟨taken, fun connectionFrom => ?_⟩
      rw [infos_forkRepeater]
      exact runs connectionFrom
    · refine ⟨same ▸ named, fun connectionFrom => ?_⟩
      rw [infos_forkRepeater, same]
      exact active connectionFrom

/-- Making both ends of a code active. -/
def Lists.activate (lists : Lists) (code : Int64) : Lists :=
  setServerActive (setViewerActive lists code) code

theorem infos_activate (connectionFrom : ConnectionFrom) :
    (lists.activate code).infos connectionFrom =
      activateInfo code (lists.infos connectionFrom) := by
  cases connectionFrom <;> rfl

/-- Both ends of a session are active. -/
theorem entry_activate (present : ∀ side, entry code (lists.infos side) ≠ none)
    (connectionFrom : ConnectionFrom) :
    entry code ((lists.activate code).infos connectionFrom) = some true := by
  obtain ⟨active, held⟩ := Option.ne_none_iff_exists'.mp (present connectionFrom)
  rw [infos_activate, entry_activateInfo, if_pos rfl, held]
  rfl

/-- Starting a session keeps the tables safe. -/
theorem safe_activate (safe : lists.Safe) (named : code ≠ 0)
    (present : ∀ side, entry code (lists.infos side) ≠ none)
    (waits : entry code (lists.infos connectionFrom) ≠ some true) :
    (lists.activate code).Safe := by
  refine safe.touch (fun side => ?_) rfl ?_ ?_ (safe.idle named waits)
  · rw [infos_activate]
    exact apart_activateInfo (safe.apart side)
  · intro other taken different side
    rw [infos_activate, entry_activateInfo, if_neg different]
  · exact fun _ side _ => entry_activate present side.other

/-- Both ends of a code are there, one of them waits, and they are joined. -/
theorem safe_join (pid : Int32) (safe : lists.Safe) (named : code ≠ 0)
    (present : ∀ side, entry code (lists.infos side) ≠ none)
    (waits : entry code (lists.infos connectionFrom) ≠ some true) :
    (forkRepeater (lists.activate code) code pid).Safe :=
  safe_forkRepeater pid (safe_activate safe named present waits) named (entry_activate present)
    (safe.idle named waits)

/-- Clearing the entry of a process keeps them safe. -/
theorem safe_removeRepeaterProcList (safe : lists.Safe) (pid : Int32) :
    (removeRepeaterProcList lists pid).Safe where
  apart := safe.apart
  procs_apart := safe.procs_apart.updateFirst fun _ _ _ => Or.inl rfl
  both := safe.both
  running proc member busy := by
    rcases mem_updateFirst member with kept | ⟨_, _, _, rfl⟩
    · exact safe.running proc kept busy
    · exact (busy rfl).elim

/-- Removing a code from both tables. -/
def Lists.remove (lists : Lists) (code : Int64) : Lists :=
  removeViewerList (removeServerList lists code) code

theorem infos_remove (connectionFrom : ConnectionFrom) :
    (lists.remove code).infos connectionFrom = removeInfo code (lists.infos connectionFrom) := by
  cases connectionFrom <;> rfl

/-- The end of a session whose process is gone keeps the tables safe. -/
theorem safe_remove (safe : lists.Safe) (named : code ≠ 0)
    (idle : ∀ proc ∈ lists.repeaterProcs, proc.code ≠ code) : (lists.remove code).Safe := by
  refine safe.touch (fun side => ?_) rfl ?_ ?_ idle
  · rw [infos_remove]
    exact apart_removeInfo (safe.apart side)
  · intro other taken different side
    rw [infos_remove, entry_removeInfo (safe.apart side) named taken, if_neg different]
  · intro _ side active
    rw [infos_remove, entry_removeInfo (safe.apart side) named named, if_pos rfl] at active
    cases active

theorem addInfo_eq_none {infos : List RepeaterInfo} :
    addInfo code peerIp now infos = none ↔ hasRoom infos = false := by
  rw [addInfo, Option.map_eq_none_iff, List.findIdx?_eq_none_iff, hasRoom, List.any_eq_false]
  exact forall₂_congr fun info _ => (Bool.not_eq_true _).symm.to_iff

/-- An entry that is taken was free. -/
theorem hasRoom_of_added {infos : List RepeaterInfo} {added : Nat × List RepeaterInfo}
    (found : addInfo code peerIp now infos = some added) : hasRoom infos = true := by
  by_contra full
  rw [addInfo_eq_none.mpr (Bool.eq_false_of_not_eq_true full)] at found
  cases found

section LeftOpen

variable {serverSocket viewerSocket : Nat}

theorem leftOpen_full (viewers : hasRoom lists.viewers = false)
    (servers : hasRoom lists.servers = false) :
    lists.leftOpen serverSocket viewerSocket = ∅ := by
  rw [Lists.leftOpen, viewers, servers]

theorem leftOpen_server (viewers : hasRoom lists.viewers = false)
    (servers : hasRoom lists.servers = true) :
    lists.leftOpen serverSocket viewerSocket = {serverSocket} := by
  rw [Lists.leftOpen, viewers, servers]

theorem leftOpen_viewer (viewers : hasRoom lists.viewers = true)
    (servers : hasRoom lists.servers = false) :
    lists.leftOpen serverSocket viewerSocket = {viewerSocket} := by
  rw [Lists.leftOpen, viewers, servers]

theorem leftOpen_room (viewers : hasRoom lists.viewers = true)
    (servers : hasRoom lists.servers = true) :
    lists.leftOpen serverSocket viewerSocket = ∅ := by
  rw [Lists.leftOpen, viewers, servers]

end LeftOpen

end BothTables

/-- A code that is taken from an id is positive. -/
theorem parseId_pos {id : List Char} (sent : parseId id ≠ -1) : 0 < parseId id := by
  unfold parseId at sent ⊢
  dsimp only at sent ⊢
  split at sent
  · exact (sent rfl).elim
  · split at sent
    · exact (sent rfl).elim
    · split at sent
      · exact (sent rfl).elim
      · next isId digits positive =>
          rw [if_neg isId, if_neg digits, if_neg positive, Int64.lt_iff_toInt_lt,
            Int32.toInt_toInt64]
          exact Int32.lt_iff_toInt_lt.mp (Int32.not_le.mp positive)

end Repeater
