import MegaVnc.Repeater.OpenedServers
import MegaVnc.Repeater.ReadIni

/-! # Sessions that the ini file lists

What the ini file lists limits the sessions of the repeater that has read it, in every
run: the ids of Mode 2, and the servers of Mode 1.
-/

namespace Repeater

open Text Transition

variable {file : List Char} {found : Bool} {ini : Ini} {getpid : Int32}

/-- A line of the file gives the text of a setting. -/
def Said (file name text : List Char) : Prop :=
  contentOf (statementsOf file) (strlwc name) = some (some text)

/-- A line of the file gives the id code. -/
def ListsId (file : List Char) (code : Int64) : Prop :=
  ∃ ii ∈ List.range idListSize, ∃ text, Said file (numbered "mode2:idlist" ii) text ∧
    code = (atoi text).toInt64

/-- What differs from the default is said by the file. -/
theorem said_of_ne {α : Type} {content : Content} {name : List Char} {dflt : α}
    {read : List Char → α} (changed : saidOf content name dflt read ≠ dflt) :
    ∃ text, content (strlwc name) = some (some text) ∧
      saidOf content name dflt read = read text := by
  unfold saidOf at changed ⊢
  cases said : content (strlwc name) with
  | none =>
      rw [said] at changed
      exact (changed rfl).elim
  | some val =>
      cases val with
      | none =>
          rw [said] at changed
          exact (changed rfl).elim
      | some text => exact ⟨text, rfl, rfl⟩

/-! ### Ids -/

/-- An id that the settings admit is one of the file, as long as a list is required. -/
theorem listsId_of_admits {code : Int64}
    (read : readIniFile .initial (some file) = .ok (found, ini))
    (required : ini.requireListedId ≠ 0) (admits : (ini.settings getpid).config.Admits code) :
    ini.requireListedId = 1 ∧ ListsId file code := by
  obtain ⟨positive, listed⟩ := admits
  obtain ⟨number, member, same⟩ := List.any_eq_true.mp (listed (decide_eq_true required))
  rw [decide_eq_true_eq] at same
  have nonzero : number ≠ 0 := by
    rintro rfl
    rw [same] at positive
    exact absurd positive (by decide)
  have from_file : number ∈ ini.idList := member
  rw [eq_settingsOf read, idList_settingsOf, ← eq_settingsOf read] at from_file
  by_cases one : ini.requireListedId = 1
  · rw [if_pos one] at from_file
    obtain ⟨ii, inside, rfl⟩ := List.mem_map.mp from_file
    obtain ⟨text, said, value⟩ := said_of_ne nonzero
    exact ⟨one, ii, inside, text, said, same.trans (congrArg Int32.toInt64 value)⟩
  · rw [if_neg one] at from_file
    exact (nonzero (List.eq_of_mem_replicate from_file)).elim

/-- When the file requires listed ids, each id in the tables and of a relay is one of its
list; when it does so with another value than 1, there is none. -/
theorem listed_ids_run (read : readIniFile .initial (some file) = .ok (found, ini))
    (required : ini.requireListedId ≠ 0) (getpid : Int32) (calls : List (Int64 × ProcessCall)) :
    (run (Process.step (ini.settings getpid)) (.start (ini.settings getpid).config) calls).Coded
      fun code => 0 < code → ini.requireListedId = 1 ∧ ListsId file code := by
  have reached : Reachable (Process.step (ini.settings getpid))
      (.start (ini.settings getpid).config)
      (run (Process.step (ini.settings getpid)) (.start (ini.settings getpid).config) calls) :=
    ⟨calls, rfl⟩
  refine (reached.invariant (fun process =>
    (process.Coded fun code => 0 < code → ini.requireListedId = 1 ∧ ListsId file code) ∧
      minInventedConnCode ≤ process.mode1ConnCode ∧ process.mode1ConnCode ≤ 0) ?_ ?_).1
  · rintro process call ⟨coded, low, high⟩
    obtain ⟨least, negative⟩ := nextMode1ConnCode_bounds low high
    have step : (process.step (ini.settings getpid) call).Coded _ :=
      coded.step (fun positive => absurd positive (by decide))
        (fun code admits _ => listsId_of_admits read required admits) call
        fun _ positive => absurd (Int64.lt_trans positive negative) (by decide)
    have invents : (process.step (ini.settings getpid) call).mode1ConnCode = _ ∨
        (process.step (ini.settings getpid) call).mode1ConnCode = _ :=
      Process.mode1ConnCode_step call
    rcases invents with same | next
    · exact ⟨step, same ▸ low, same ▸ high⟩
    · exact ⟨step, next ▸ least, next ▸ Int64.le_of_lt negative⟩
  · exact ⟨Process.coded_start _ fun positive => absurd positive (by decide),
      (by decide : minInventedConnCode ≤ 0), Int64.le_refl 0⟩

/-- One id is listed. -/
def sevenListed : List Char := "[mode2]\nrequirelistedid = 1\nidlist0 = 7\n".toList

/-- The variables after that file has been read. -/
def Ini.sevenListed : Ini :=
  { Ini.initial with
    requireListedId := 1
    idList := 7 :: List.replicate 99 0 }

/-- A viewer sends an id that is not listed before one comes for the server. -/
def twoViewers : List (Int64 × ProcessCall) :=
  [(10, serverOfSeven), (11, viewerOf "ID:8".toList none), (12, viewerOf "ID:7".toList none)]

theorem listed_ids_run_twoViewers :
    let process := run (Process.step (Ini.sevenListed.settings 1))
      (.start (Ini.sevenListed.settings 1).config) twoViewers
    process.relayed = [0, 2] ∧
      process.Coded fun code => 0 < code → (1 : Int32) = 1 ∧ ListsId sevenListed code := by
  have read : readIniFile .initial (some sevenListed) = .ok (true, Ini.sevenListed) := by
    decide +kernel
  exact ⟨by decide +kernel, listed_ids_run read (by decide) 1 twoViewers⟩

/-! ### Servers -/

/-- A line of the file gives the address range. -/
def ListsServer (file : List Char) (name : String) (listed : AddrParts) : Prop :=
  ∃ ii ∈ List.range serversListSize, ∃ text, Said file (numbered name ii) text ∧
    listed = getAddrPartsFromString (text.take (myTmpBufLen - 1))

/-- An entry that is not the default stands in the file. -/
theorem mem_serversSaid {name : String} {listed : AddrParts}
    (member : listed ∈ serversSaid (contentOf (statementsOf file)) name)
    (limited : listed ≠ noServer) : ListsServer file name listed := by
  obtain ⟨ii, inside, rfl⟩ := List.mem_map.mp member
  have changed : textSaid (contentOf (statementsOf file)) (numbered name ii)
      "255.255.255.255".toList ≠ "255.255.255.255".toList.take (myTmpBufLen - 1) := by
    intro same
    rw [same] at limited
    exact limited (by decide +kernel)
  obtain ⟨text, said, value⟩ := said_of_ne changed
  exact ⟨ii, inside, text, said, congrArg getAddrPartsFromString value⟩

/-- What stands in the file is an entry. -/
theorem serversSaid_of_listsServer {name : String} {listed : AddrParts}
    (lists : ListsServer file name listed) :
    listed ∈ serversSaid (contentOf (statementsOf file)) name := by
  obtain ⟨ii, inside, text, said, rfl⟩ := lists
  refine List.mem_map.mpr ⟨ii, inside, ?_⟩
  unfold textSaid saidOf
  rw [said]

/-- When the file requires listed servers, the repeater connects a viewer of Mode 1 to no
server but one that a line allows and no line denies. The operating system may reuse
descriptors as it likes, and the codes of the sessions do not matter. -/
theorem listed_servers_run (read : readIniFile .initial (some file) = .ok (found, ini))
    (required : ini.requireListedServer = 1) (getpid : Int32)
    (calls : List (Int64 × ProcessCall)) :
    ∀ relay ∈ (run (Process.step (ini.settings getpid)) (.start (ini.settings getpid).config)
      calls).relays, ∀ server ∈ relay.server, ∀ request address,
        server.origin = .opened request address →
          (∃ listed, ListsServer file "mode1:srvListAllow" listed ∧ covers listed address) ∧
            ∀ listed, ListsServer file "mode1:srvListDeny" listed →
              covers listed address = false := by
  intro relay member server given request address opened
  have within := (Process.opens_run (ini.settings getpid) calls).relays relay member server given
  rw [opened] at within
  obtain ⟨⟨listed, allow, limited, covered⟩, notDenied, -⟩ := within (decide_eq_true required)
  have allowed : ini.srvListAllow =
      serversSaid (contentOf (statementsOf file)) "mode1:srvListAllow" := by
    rw [eq_settingsOf read, srvListAllow_settingsOf, ← eq_settingsOf read, if_pos required]
  have denied : ini.srvListDeny =
      serversSaid (contentOf (statementsOf file)) "mode1:srvListDeny" := by
    rw [eq_settingsOf read, srvListDeny_settingsOf, ← eq_settingsOf read, if_pos required]
  change listed ∈ ini.srvListAllow at allow
  change ∀ entry ∈ ini.srvListDeny, _ at notDenied
  rw [allowed] at allow
  rw [denied] at notDenied
  refine ⟨⟨listed, mem_serversSaid allow ?_, covered⟩, fun listed lists =>
    notDenied listed (serversSaid_of_listsServer lists)⟩
  rintro rfl
  exact absurd limited (by decide)

/-- The servers of one address range are listed. -/
def rangeListed : List Char :=
  "[mode1]\nrequirelistedserver = 1\nsrvListAllow0 = 10.0.0.0\n".toList

/-- The variables after that file has been read. -/
def Ini.rangeListed : Ini :=
  { Ini.initial with
    requireListedServer := 1
    srvListAllow := ⟨10, 0, 0, 0⟩ :: List.replicate 49 noServer }

/-- A viewer asks for a host in that range. -/
def hostAsked : List (Int64 × ProcessCall) :=
  [(10, .acceptConnection .viewer
    { socket := 5
      peerIp := ⟨10, 0, 0, 2⟩
      versionWritten := true
      id := some "host".toList
      resolved := some ⟨10, 1, 2, 3⟩
      server := some 6
      pid := 100
      handShake := [] })]

theorem listed_servers_run_hostAsked : ∃ relay ∈ (run (Process.step (Ini.rangeListed.settings 1))
    (.start (Ini.rangeListed.settings 1).config) hostAsked).relays, ∃ server ∈ relay.server,
      server.origin = .opened "host".toList ⟨10, 1, 2, 3⟩ ∧ ∃ listed,
        ListsServer rangeListed "mode1:srvListAllow" listed ∧
          covers listed ⟨10, 1, 2, 3⟩ := by
  have read : readIniFile .initial (some rangeListed) = .ok (true, Ini.rangeListed) := by
    decide +kernel
  let server : Connection := ⟨1, .opened "host".toList ⟨10, 1, 2, 3⟩, [], []⟩
  let viewer : Connection := ⟨0, .accepted .viewer (some "host".toList), [], []⟩
  have joined : RelayStart.mk (-1) (some server) (some viewer) [] ∈
      (run (Process.step (Ini.rangeListed.settings 1))
        (.start (Ini.rangeListed.settings 1).config) hostAsked).relays := by
    decide +kernel
  exact ⟨_, joined, _, rfl, rfl, (listed_servers_run read rfl 1 hostAsked _ joined _ rfl _ _
    rfl).1⟩

end Repeater
