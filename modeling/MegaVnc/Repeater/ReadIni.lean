import MegaVnc.Foundation.Fallible
import MegaVnc.Repeater.Descriptors
import MegaVnc.Repeater.IniParser

/-! # The settings of the ini file

`readIniFile` asks the dictionary of the ini file for each setting. What it reads is a
function of what the file says (`settingsOf`), unless a name that it asks for is that of
a section.
-/

namespace Repeater

open Fallible Text Transition

/-- How many sessions there may be unless the file says it. -/
def maxSessionsDefault : Int32 := 100

/-- The least number of sessions. -/
def maxSessionsMin : Int32 := 1

/-- The greatest number of sessions. -/
def maxSessionsMax : Int32 := 1000

/-- The least logging level. -/
def level0 : Int32 := 0

/-- The greatest logging level. -/
def level3 : Int32 := 3

/-- The logging level unless the file says it. -/
def defaultLoggingLevel : Int32 := 2

/-- How many servers can be listed. -/
def serversListSize : Nat := 50

/-- How many ids can be listed. -/
def idListSize : Nat := 100

/-- The variables that `readIniFile` sets. -/
structure Ini where
  viewerPort : Int32
  serverPort : Int32
  maxSessions : Int32
  allowedModes : Int32
  ownIpAddress : List Char
  runAsUser : List Char
  loggingLevel : Int32
  allowedMode1ServerPort : Int32
  requireListedServer : Int32
  srvListAllow : List AddrParts
  srvListDeny : List AddrParts
  requireListedId : Int32
  idList : List Int32
  useEventInterface : Bool
  eventListenerHost : List Char
  eventListenerPort : Int32
  useHttpForEventListener : Bool
deriving DecidableEq

/-- The entry of a list that the file does not give. -/
def noServer : AddrParts := ⟨255, 255, 255, 255⟩

/-- The values before a file is read. -/
def Ini.initial : Ini where
  viewerPort := 5900
  serverPort := 5500
  maxSessions := maxSessionsDefault
  allowedModes := connMode1 ||| connMode2
  ownIpAddress := "0.0.0.0".toList
  runAsUser := "uvncrep".toList
  loggingLevel := defaultLoggingLevel
  allowedMode1ServerPort := 0
  requireListedServer := 0
  srvListAllow := List.replicate serversListSize noServer
  srvListDeny := List.replicate serversListSize noServer
  requireListedId := 0
  idList := List.replicate idListSize 0
  useEventInterface := false
  eventListenerHost := "localhost".toList
  eventListenerPort := 2002
  useHttpForEventListener := false

/-! ### The file -/

/-- `strlcpy` of what `iniparser_getstring` finds. -/
def copyString (dict : Dictionary) (key dflt : List Char) : Except NullPointer (List Char) :=
  iniparserGetstring dict key (some dflt) >>= fun
    | none => .error .strlcpy
    | some text => .ok (text.take (myTmpBufLen - 1))

/-- A number of sessions out of its range becomes the default. -/
def limitSessions (maxSessions : Int32) : Int32 :=
  let maxSessions := if maxSessions > maxSessionsMax then maxSessionsDefault else maxSessions
  if maxSessions < maxSessionsMin then maxSessionsDefault else maxSessions

/-- A logging level out of its range becomes the default. -/
def limitLevel (loggingLevel : Int32) : Int32 :=
  let loggingLevel := if loggingLevel > level3 then defaultLoggingLevel else loggingLevel
  if loggingLevel < level0 then defaultLoggingLevel else loggingLevel

/-- The name of a setting that is one of a list. -/
def numbered (name : String) (ii : Nat) : List Char :=
  name.toList ++ decimal ii

variable (dict : Dictionary) (ini : Ini)

/-- The section about the repeater as a whole. -/
def readGeneral : Except NullPointer Ini := do
  let viewerPort ← iniparserGetint dict "general:viewerport".toList 5900
  let serverPort ← iniparserGetint dict "general:serverport".toList 5500
  let maxSessions ← iniparserGetint dict "general:maxsessions".toList maxSessionsDefault
  let allowedModes ← iniparserGetint dict "general:allowedmodes".toList (connMode1 ||| connMode2)
  let ownIpAddress ← copyString dict "general:ownipaddress".toList "0.0.0.0".toList
  let runAsUser ← copyString dict "general:runasuser".toList "uvncrep".toList
  let loggingLevel ← iniparserGetint dict "general:logginglevel".toList defaultLoggingLevel
  return { ini with
    viewerPort := viewerPort
    serverPort := serverPort
    maxSessions := limitSessions maxSessions
    allowedModes := allowedModes
    ownIpAddress := ownIpAddress
    runAsUser := runAsUser
    loggingLevel := limitLevel loggingLevel }

/-- One entry of a list of servers. -/
def readListed (name : String) (ii : Nat) : Except NullPointer AddrParts := do
  let text ← copyString dict (numbered name ii) "255.255.255.255".toList
  return getAddrPartsFromString text

/-- The section about Mode 1; the lists are read only for the value 1. -/
def readMode1 : Except NullPointer Ini := do
  let allowedMode1ServerPort ← iniparserGetint dict "mode1:allowedmode1serverport".toList 0
  let requireListedServer ← iniparserGetint dict "mode1:requirelistedserver".toList 0
  let ini := { ini with
    allowedMode1ServerPort := allowedMode1ServerPort
    requireListedServer := requireListedServer }
  if requireListedServer = 1 then
    let srvListAllow ← (List.range serversListSize).mapM (readListed dict "mode1:srvListAllow")
    let srvListDeny ← (List.range serversListSize).mapM (readListed dict "mode1:srvListDeny")
    return { ini with
      srvListAllow := srvListAllow
      srvListDeny := srvListDeny }
  else return ini

/-- The section about Mode 2; the list is read only for the value 1. -/
def readMode2 : Except NullPointer Ini := do
  let requireListedId ← iniparserGetint dict "mode2:requirelistedid".toList 0
  let ini := { ini with requireListedId := requireListedId }
  if requireListedId = 1 then
    let idList ← (List.range idListSize).mapM fun ii =>
      iniparserGetint dict (numbered "mode2:idlist" ii) 0
    return { ini with idList := idList }
  else return ini

/-- The section about the listener of events. -/
def readEventInterface : Except NullPointer Ini := do
  let useEventInterface ←
    iniparserGetboolean dict "eventinterface:useeventinterface".toList false
  let eventListenerHost ←
    copyString dict "eventinterface:eventlistenerhost".toList "localhost".toList
  let eventListenerPort ← iniparserGetint dict "eventinterface:eventlistenerport".toList 2002
  let useHttpForEventListener ← iniparserGetboolean dict "eventinterface:usehttp".toList false
  return { ini with
    useEventInterface := useEventInterface
    eventListenerHost := eventListenerHost
    eventListenerPort := eventListenerPort
    useHttpForEventListener := useHttpForEventListener }

/-- The variables stay as they are when the file cannot be opened. -/
def readIniFile : Option (List Char) → Except NullPointer (Bool × Ini)
  | none => .ok (false, ini)
  | some file => do
      let dict := iniparserNew file
      let ini ← readGeneral dict ini
      let ini ← readMode1 dict ini
      let ini ← readMode2 dict ini
      let ini ← readEventInterface dict ini
      return (true, ini)

/-- The settings that the main loop runs with. A list of servers is required by the value
1 only, a list of ids by every value but 0. -/
def Ini.settings (getpid : Int32) : Settings where
  config :=
    { maxSessions := ini.maxSessions.toInt.toNat
      requireListedId := ini.requireListedId ≠ 0
      idList := ini.idList
      getpid := getpid }
  allowedModes := ini.allowedModes
  mode1 :=
    { allowedMode1ServerPort := ini.allowedMode1ServerPort
      requireListedServer := ini.requireListedServer = 1
      srvListAllow := ini.srvListAllow
      srvListDeny := ini.srvListDeny }

/-! ### What is read -/

/-- What a file says of a name; nothing, when the name is that of a section. -/
def saidOf {α : Type} (content : Content) (name : List Char) (dflt : α) (read : List Char → α) :
    α :=
  match content (strlwc name) with
  | some (some text) => read text
  | _ => dflt

/-- A text that the file gives, cut to its buffer. -/
def textSaid (content : Content) (name dflt : List Char) : List Char :=
  saidOf content name (dflt.take (myTmpBufLen - 1)) fun text => text.take (myTmpBufLen - 1)

/-- A list of servers that the file gives. -/
def serversSaid (content : Content) (name : String) : List AddrParts :=
  (List.range serversListSize).map fun ii =>
    getAddrPartsFromString (textSaid content (numbered name ii) "255.255.255.255".toList)

/-- The variables after a file has been read. -/
def settingsOf (content : Content) (ini : Ini) : Ini :=
  let requireListedServer := saidOf content "mode1:requirelistedserver".toList 0 atoi
  let requireListedId := saidOf content "mode2:requirelistedid".toList 0 atoi
  { viewerPort := saidOf content "general:viewerport".toList 5900 atoi
    serverPort := saidOf content "general:serverport".toList 5500 atoi
    maxSessions :=
      limitSessions (saidOf content "general:maxsessions".toList maxSessionsDefault atoi)
    allowedModes := saidOf content "general:allowedmodes".toList (connMode1 ||| connMode2) atoi
    ownIpAddress := textSaid content "general:ownipaddress".toList "0.0.0.0".toList
    runAsUser := textSaid content "general:runasuser".toList "uvncrep".toList
    loggingLevel :=
      limitLevel (saidOf content "general:logginglevel".toList defaultLoggingLevel atoi)
    allowedMode1ServerPort := saidOf content "mode1:allowedmode1serverport".toList 0 atoi
    requireListedServer := requireListedServer
    srvListAllow :=
      if requireListedServer = 1 then serversSaid content "mode1:srvListAllow"
      else ini.srvListAllow
    srvListDeny :=
      if requireListedServer = 1 then serversSaid content "mode1:srvListDeny"
      else ini.srvListDeny
    requireListedId := requireListedId
    idList :=
      if requireListedId = 1 then
        (List.range idListSize).map fun ii => saidOf content (numbered "mode2:idlist" ii) 0 atoi
      else ini.idList
    useEventInterface :=
      saidOf content "eventinterface:useeventinterface".toList false (booleanOf false)
    eventListenerHost :=
      textSaid content "eventinterface:eventlistenerhost".toList "localhost".toList
    eventListenerPort := saidOf content "eventinterface:eventlistenerport".toList 2002 atoi
    useHttpForEventListener :=
      saidOf content "eventinterface:usehttp".toList false (booleanOf false) }

section Lists

variable (content : Content) (ini : Ini)

theorem srvListAllow_settingsOf : (settingsOf content ini).srvListAllow =
    if (settingsOf content ini).requireListedServer = 1 then
      serversSaid content "mode1:srvListAllow"
    else ini.srvListAllow := rfl

theorem srvListDeny_settingsOf : (settingsOf content ini).srvListDeny =
    if (settingsOf content ini).requireListedServer = 1 then
      serversSaid content "mode1:srvListDeny"
    else ini.srvListDeny := rfl

theorem idList_settingsOf : (settingsOf content ini).idList =
    if (settingsOf content ini).requireListedId = 1 then
      (List.range idListSize).map fun ii => saidOf content (numbered "mode2:idlist" ii) 0 atoi
    else ini.idList := rfl

end Lists

/-- The names that are asked for of the repeater as a whole. -/
def generalNames : List (List Char) :=
  ["general:viewerport".toList, "general:serverport".toList, "general:maxsessions".toList,
    "general:allowedmodes".toList, "general:ownipaddress".toList, "general:runasuser".toList,
    "general:logginglevel".toList]

/-- The names that are asked for of Mode 1, which depend on what the file requires. -/
def mode1Names (content : Content) : List (List Char) :=
  "mode1:allowedmode1serverport".toList :: "mode1:requirelistedserver".toList ::
    if saidOf content "mode1:requirelistedserver".toList 0 atoi = 1 then
      (List.range serversListSize).map (numbered "mode1:srvListAllow") ++
        (List.range serversListSize).map (numbered "mode1:srvListDeny")
    else []

/-- The names that are asked for of Mode 2. -/
def mode2Names (content : Content) : List (List Char) :=
  "mode2:requirelistedid".toList ::
    if saidOf content "mode2:requirelistedid".toList 0 atoi = 1 then
      (List.range idListSize).map (numbered "mode2:idlist")
    else []

/-- The names that are asked for of the listener. -/
def eventNames : List (List Char) :=
  ["eventinterface:useeventinterface".toList, "eventinterface:eventlistenerhost".toList,
    "eventinterface:eventlistenerport".toList, "eventinterface:usehttp".toList]

/-- The names that are asked for. -/
def namesOf (content : Content) : List (List Char) :=
  generalNames ++ mode1Names content ++ mode2Names content ++ eventNames

/-- The file says something that a setting can be read from, or nothing. -/
def Readable (content : Content) (name : List Char) : Prop :=
  content (strlwc name) ≠ some none

section Reading

variable {file : List Char} {content : Content} {name : List Char}

/-- A setting is found, or has its default, unless the last statement of the file about its
name is a section line. -/
theorem consult_eq_ok {α : Type} {dflt value : α} {null : NullPointer} {read : List Char → α}
    (same : content = contentOf (statementsOf file))
    (nonzero : dictionaryHash (strlwc name) ≠ 0) :
    (dictionaryGet (iniparserNew file) (strlwc name) >>= fun
      | none => .ok dflt
      | some none => .error null
      | some (some text) => .ok (read text)) = .ok value ↔
      Readable content name ∧ value = saidOf content name dflt read := by
  rw [dictionaryGet_iniparserNew file nonzero, ok_bind, ← same]
  unfold Readable saidOf
  cases content (strlwc name) with
  | none => simp only [Except.ok.injEq, ne_eq, reduceCtorEq, not_false_eq_true, true_and, eq_comm]
  | some said =>
      cases said with
      | none => simp only [reduceCtorEq, ne_eq, not_true_eq_false, false_and]
      | some text =>
          simp only [Except.ok.injEq, ne_eq, Option.some.injEq, reduceCtorEq, not_false_eq_true,
            true_and, eq_comm]

/-- An integer is the one that the file gives, or the default. -/
theorem getint_eq_ok {dflt value : Int32} (same : content = contentOf (statementsOf file))
    (nonzero : dictionaryHash (strlwc name) ≠ 0) :
    iniparserGetint (iniparserNew file) name dflt = .ok value ↔
      Readable content name ∧ value = saidOf content name dflt atoi :=
  consult_eq_ok same nonzero

/-- A truth value is the one that the file gives, or the default. -/
theorem getboolean_eq_ok {dflt value : Bool} (same : content = contentOf (statementsOf file))
    (nonzero : dictionaryHash (strlwc name) ≠ 0) :
    iniparserGetboolean (iniparserNew file) name dflt = .ok value ↔
      Readable content name ∧ value = saidOf content name dflt (booleanOf dflt) :=
  consult_eq_ok same nonzero

/-- A text is the one that the file gives, or the default. -/
theorem copyString_eq_ok {dflt value : List Char} (same : content = contentOf (statementsOf file))
    (nonzero : dictionaryHash (strlwc name) ≠ 0) :
    copyString (iniparserNew file) name dflt = .ok value ↔
      Readable content name ∧ value = textSaid content name dflt := by
  have consults : copyString (iniparserNew file) name dflt =
      dictionaryGet (iniparserNew file) (strlwc name) >>= fun
        | none => .ok (dflt.take (myTmpBufLen - 1))
        | some none => .error .strlcpy
        | some (some text) => .ok (text.take (myTmpBufLen - 1)) := by
    unfold copyString iniparserGetstring
    cases dictionaryGet (iniparserNew file) (strlwc name) with
    | error null => rfl
    | ok found =>
        cases found with
        | none => rfl
        | some said => cases said <;> rfl
  rw [consults]
  exact consult_eq_ok same nonzero

/-- The first section is read exactly when each of its names can be, for what the file says. -/
theorem readGeneral_eq_ok {ini result : Ini} (same : content = contentOf (statementsOf file)) :
    readGeneral (iniparserNew file) ini = .ok result ↔
      (∀ name ∈ generalNames, Readable content name) ∧ result = { ini with
        viewerPort := saidOf content "general:viewerport".toList 5900 atoi
        serverPort := saidOf content "general:serverport".toList 5500 atoi
        maxSessions :=
          limitSessions (saidOf content "general:maxsessions".toList maxSessionsDefault atoi)
        allowedModes := saidOf content "general:allowedmodes".toList (connMode1 ||| connMode2) atoi
        ownIpAddress := textSaid content "general:ownipaddress".toList "0.0.0.0".toList
        runAsUser := textSaid content "general:runasuser".toList "uvncrep".toList
        loggingLevel :=
          limitLevel (saidOf content "general:logginglevel".toList defaultLoggingLevel atoi) } := by
  simp (disch := decide +kernel) only [readGeneral, bind_eq_ok, getint_eq_ok same,
    copyString_eq_ok same, pure_eq_ok, generalNames, List.forall_mem_cons, List.not_mem_nil,
    false_imp_iff, implies_true, and_true, and_assoc, exists_and_left, exists_eq_left]
  simp only [eq_comm]

/-- An entry of a list is read for what the file says last about it. -/
theorem readListed_eq_ok {server : String} {ii : Nat} {value : AddrParts}
    (same : content = contentOf (statementsOf file))
    (nonzero : dictionaryHash (strlwc (numbered server ii)) ≠ 0) :
    readListed (iniparserNew file) server ii = .ok value ↔
      Readable content (numbered server ii) ∧ value = getAddrPartsFromString
        (textSaid content (numbered server ii) "255.255.255.255".toList) := by
  simp only [readListed, bind_eq_ok, copyString_eq_ok same nonzero, pure_eq_ok, and_assoc,
    exists_and_left, exists_eq_left]
  simp only [eq_comm]

/-- No name of a list has the hash of a free slot. -/
theorem hash_numbered :
    (∀ ii ∈ List.range serversListSize,
      dictionaryHash (strlwc (numbered "mode1:srvListAllow" ii)) ≠ 0 ∧
        dictionaryHash (strlwc (numbered "mode1:srvListDeny" ii)) ≠ 0) ∧
      ∀ ii ∈ List.range idListSize, dictionaryHash (strlwc (numbered "mode2:idlist" ii)) ≠ 0 := by
  constructor <;> decide +kernel

/-- The section about Mode 1 is read as it is in the settings. -/
theorem readMode1_eq_ok {ini result : Ini} (same : content = contentOf (statementsOf file)) :
    readMode1 (iniparserNew file) ini = .ok result ↔
      (∀ name ∈ mode1Names content, Readable content name) ∧ result = { ini with
        allowedMode1ServerPort := saidOf content "mode1:allowedmode1serverport".toList 0 atoi
        requireListedServer := saidOf content "mode1:requirelistedserver".toList 0 atoi
        srvListAllow :=
          if saidOf content "mode1:requirelistedserver".toList 0 atoi = 1 then
            serversSaid content "mode1:srvListAllow"
          else ini.srvListAllow
        srvListDeny :=
          if saidOf content "mode1:requirelistedserver".toList 0 atoi = 1 then
            serversSaid content "mode1:srvListDeny"
          else ini.srvListDeny } := by
  have allow (values : List AddrParts) : (List.range serversListSize).mapM
      (readListed (iniparserNew file) "mode1:srvListAllow") = .ok values ↔
        (∀ ii ∈ List.range serversListSize,
          Readable content (numbered "mode1:srvListAllow" ii)) ∧
          values = serversSaid content "mode1:srvListAllow" :=
    mapM_eq_ok fun ii inside value => readListed_eq_ok same (hash_numbered.1 ii inside).1
  have deny (values : List AddrParts) : (List.range serversListSize).mapM
      (readListed (iniparserNew file) "mode1:srvListDeny") = .ok values ↔
        (∀ ii ∈ List.range serversListSize,
          Readable content (numbered "mode1:srvListDeny" ii)) ∧
          values = serversSaid content "mode1:srvListDeny" :=
    mapM_eq_ok fun ii inside value => readListed_eq_ok same (hash_numbered.1 ii inside).2
  simp (disch := decide +kernel) only [readMode1, bind_eq_ok, getint_eq_ok same, mode1Names,
    List.forall_mem_cons, and_assoc, exists_and_left, exists_eq_left]
  by_cases required : saidOf content "mode1:requirelistedserver".toList 0 atoi = 1
  · simp only [required, ↓reduceIte, bind_eq_ok, allow, deny, pure_eq_ok, List.forall_mem_append,
      List.forall_mem_map, and_assoc, exists_and_left, exists_eq_left]
    simp only [eq_comm]
  · simp only [required, ↓reduceIte, pure_eq_ok, List.not_mem_nil, false_imp_iff, implies_true,
      true_and]
    simp only [eq_comm]

/-- The section about Mode 2 is read as it is in the settings. -/
theorem readMode2_eq_ok {ini result : Ini} (same : content = contentOf (statementsOf file)) :
    readMode2 (iniparserNew file) ini = .ok result ↔
      (∀ name ∈ mode2Names content, Readable content name) ∧ result = { ini with
        requireListedId := saidOf content "mode2:requirelistedid".toList 0 atoi
        idList :=
          if saidOf content "mode2:requirelistedid".toList 0 atoi = 1 then
            (List.range idListSize).map fun ii => saidOf content (numbered "mode2:idlist" ii) 0 atoi
          else ini.idList } := by
  have listed (values : List Int32) : ((List.range idListSize).mapM fun ii =>
      iniparserGetint (iniparserNew file) (numbered "mode2:idlist" ii) 0) = .ok values ↔
        (∀ ii ∈ List.range idListSize, Readable content (numbered "mode2:idlist" ii)) ∧
          values = (List.range idListSize).map fun ii =>
            saidOf content (numbered "mode2:idlist" ii) 0 atoi :=
    mapM_eq_ok fun ii inside value => getint_eq_ok same (hash_numbered.2 ii inside)
  simp (disch := decide +kernel) only [readMode2, bind_eq_ok, getint_eq_ok same, mode2Names,
    List.forall_mem_cons, and_assoc, exists_and_left, exists_eq_left]
  by_cases required : saidOf content "mode2:requirelistedid".toList 0 atoi = 1
  · simp only [required, ↓reduceIte, bind_eq_ok, listed, pure_eq_ok, List.forall_mem_map,
      and_assoc, exists_and_left, exists_eq_left]
    simp only [eq_comm]
  · simp only [required, ↓reduceIte, pure_eq_ok, List.not_mem_nil, false_imp_iff, implies_true,
      true_and]
    simp only [eq_comm]

/-- The section about the listener is read as it is in the settings. -/
theorem readEventInterface_eq_ok {ini result : Ini}
    (same : content = contentOf (statementsOf file)) :
    readEventInterface (iniparserNew file) ini = .ok result ↔
      (∀ name ∈ eventNames, Readable content name) ∧ result = { ini with
        useEventInterface :=
          saidOf content "eventinterface:useeventinterface".toList false (booleanOf false)
        eventListenerHost :=
          textSaid content "eventinterface:eventlistenerhost".toList "localhost".toList
        eventListenerPort := saidOf content "eventinterface:eventlistenerport".toList 2002 atoi
        useHttpForEventListener :=
          saidOf content "eventinterface:usehttp".toList false (booleanOf false) } := by
  simp (disch := decide +kernel) only [readEventInterface, bind_eq_ok, getint_eq_ok same,
    getboolean_eq_ok same, copyString_eq_ok same, pure_eq_ok, eventNames, List.forall_mem_cons,
    List.not_mem_nil, false_imp_iff, implies_true, and_true, and_assoc, exists_and_left,
    exists_eq_left]
  simp only [eq_comm]

/-- A file is read for what it says, unless its last statement about a name that is asked for
is a section line: then the process crashes. -/
theorem readIniFile_eq_ok (ini : Ini) (file : List Char) (result : Bool × Ini) :
    readIniFile ini (some file) = .ok result ↔
      result = (true, settingsOf (contentOf (statementsOf file)) ini) ∧
        ∀ name ∈ namesOf (contentOf (statementsOf file)),
          Readable (contentOf (statementsOf file)) name := by
  simp only [readIniFile, bind_eq_ok, readGeneral_eq_ok rfl, readMode1_eq_ok rfl,
    readMode2_eq_ok rfl, readEventInterface_eq_ok rfl, pure_eq_ok, namesOf,
    List.forall_mem_append, and_assoc, exists_and_left, exists_eq_left]
  constructor
  · rintro ⟨general, mode1, mode2, event, rfl⟩
    exact ⟨rfl, general, mode1, mode2, event⟩
  · rintro ⟨rfl, general, mode1, mode2, event⟩
    exact ⟨general, mode1, mode2, event, rfl⟩

example : readIniFile .initial (some "[general:viewerport]\n".toList) = .error .atoi := by
  decide +kernel

/-- What is said of a key was said last by a change of it. -/
theorem mem_of_content {changes : List Change} {key : List Char} {val : Option (List Char)}
    (said : run Content.change (fun _ => none) changes key = some val) :
    Change.set key val ∈ changes := by
  induction changes using List.reverseRecOn with
  | nil => cases said
  | append_singleton changes change ih =>
      rw [run_append, run_cons, run_nil] at said
      cases change with
      | set name value =>
          by_cases same : key = name
          · subst same
            rw [Content.change, Function.update_self, Option.some.injEq] at said
            subst said
            exact List.mem_append_right _ (List.mem_singleton_self _)
          · rw [Content.change, Function.update_of_ne same] at said
            exact List.mem_append_left _ (ih said)
      | unset name =>
          by_cases same : key = name
          · subst same
            rw [Content.change, Function.update_self] at said
            cases said
          · rw [Content.change, Function.update_of_ne same] at said
            exact List.mem_append_left _ (ih said)

/-- Only the line of a section stores a null value, under its name. -/
theorem sectionName_of_changesOf {sec key : List Char} {statements : List Statement}
    (member : Change.set key none ∈ changesOf sec statements) :
    ∃ name, .sectionName name ∈ statements ∧ key = name.take (2 * asciiLineSz) := by
  induction statements generalizing sec with
  | nil => cases member
  | cons statement rest ih =>
      have later {sec : List Char} (inside : Change.set key none ∈ changesOf sec rest) :
          ∃ name, .sectionName name ∈ statement :: rest ∧ key = name.take (2 * asciiLineSz) := by
        obtain ⟨name, present, cut⟩ := ih inside
        exact ⟨name, List.mem_cons_of_mem _ present, cut⟩
      cases statement with
      | nothing => exact later member
      | sectionName name =>
          rcases List.mem_cons.mp member with same | inside
          · cases same
            exact ⟨name, List.mem_cons_self, rfl⟩
          · exact later inside
      | setting name val =>
          rcases List.mem_cons.mp member with same | inside
          · cases same
          · exact later inside

/-- A name with a colon can be read, when no section has a colon in its name. -/
theorem readable_of_noColon {statements : List Statement}
    (noColon : ∀ sec, .sectionName sec ∈ statements → ':' ∉ sec) (colon : ':' ∈ strlwc name) :
    Readable (contentOf statements) name := by
  intro null
  obtain ⟨sec, member, cut⟩ := sectionName_of_changesOf (mem_of_content null)
  rw [cut] at colon
  exact noColon sec member (List.mem_of_mem_take colon)

/-- Each name that is asked for has a colon. -/
theorem colon_of_namesOf (asked : name ∈ namesOf content) : ':' ∈ strlwc name := by
  have servers : ∀ ii ∈ List.range serversListSize,
      ':' ∈ strlwc (numbered "mode1:srvListAllow" ii) ∧
        ':' ∈ strlwc (numbered "mode1:srvListDeny" ii) := by decide +kernel
  have ids : ∀ ii ∈ List.range idListSize, ':' ∈ strlwc (numbered "mode2:idlist" ii) := by
    decide +kernel
  have scalars : ∀ name ∈ generalNames ++ eventNames ++ ["mode1:allowedmode1serverport".toList,
      "mode1:requirelistedserver".toList, "mode2:requirelistedid".toList], ':' ∈ strlwc name := by
    decide +kernel
  simp only [namesOf, mode1Names, mode2Names, List.mem_append, List.mem_cons] at asked
  rcases asked with ((general | rfl | rfl | mode1) | rfl | mode2) | event
  · exact scalars name (by simp [general])
  · exact scalars _ (by simp)
  · exact scalars _ (by simp)
  · split at mode1
    · rcases List.mem_append.mp mode1 with allow | deny
      · obtain ⟨ii, inside, rfl⟩ := List.mem_map.mp allow
        exact (servers ii inside).1
      · obtain ⟨ii, inside, rfl⟩ := List.mem_map.mp deny
        exact (servers ii inside).2
    · cases mode1
  · exact scalars _ (by simp)
  · split at mode2
    · obtain ⟨ii, inside, rfl⟩ := List.mem_map.mp mode2
      exact ids ii inside
    · cases mode2
  · exact scalars name (by simp [event])

theorem eq_settingsOf {ini result : Ini} {found : Bool}
    (read : readIniFile ini (some file) = .ok (found, result)) :
    result = settingsOf (contentOf (statementsOf file)) ini :=
  congrArg Prod.snd ((readIniFile_eq_ok _ _ _).mp read).1

/-- No file whose sections have names without colons makes the process crash. -/
theorem readIniFile_noColon (ini : Ini)
    (noColon : ∀ sec, .sectionName sec ∈ statementsOf file → ':' ∉ sec) :
    readIniFile ini (some file) = .ok (true, settingsOf (contentOf (statementsOf file)) ini) :=
  (readIniFile_eq_ok ini file _).mpr
    ⟨rfl, fun _ asked => readable_of_noColon noColon (colon_of_namesOf asked)⟩

end Reading

/-! ### Limits -/

/-- Numbers within their limits, texts that fit their buffers, and lists of the sizes of
the arrays. -/
structure Ini.InRange (ini : Ini) : Prop where
  maxSessions : maxSessionsMin ≤ ini.maxSessions ∧ ini.maxSessions ≤ maxSessionsMax
  loggingLevel : level0 ≤ ini.loggingLevel ∧ ini.loggingLevel ≤ level3
  texts : ∀ text ∈ [ini.ownIpAddress, ini.runAsUser, ini.eventListenerHost],
    text.length < myTmpBufLen
  sizes : ini.srvListAllow.length = serversListSize ∧ ini.srvListDeny.length = serversListSize ∧
    ini.idList.length = idListSize

/-- A value outside its limits is replaced by a default within them. -/
theorem bounds_of_replaced {low high dflt : Int32} (within : low ≤ dflt ∧ dflt ≤ high)
    (value : Int32) :
    let limited := if value > high then dflt else value
    low ≤ (if limited < low then dflt else limited) ∧
      (if limited < low then dflt else limited) ≤ high := by
  dsimp only
  by_cases above : value > high
  · rw [if_pos above, ite_self]
    exact within
  · rw [if_neg above]
    split
    · exact within
    · next below => exact ⟨Int32.not_lt.mp below, Int32.not_lt.mp above⟩

theorem limitSessions_bounds (maxSessions : Int32) :
    maxSessionsMin ≤ limitSessions maxSessions ∧ limitSessions maxSessions ≤ maxSessionsMax :=
  bounds_of_replaced (by decide) maxSessions

theorem limitLevel_bounds (loggingLevel : Int32) :
    level0 ≤ limitLevel loggingLevel ∧ limitLevel loggingLevel ≤ level3 :=
  bounds_of_replaced (by decide) loggingLevel

/-- A text that is read fits its buffer. -/
theorem length_textSaid (content : Content) (name dflt : List Char) :
    (textSaid content name dflt).length < myTmpBufLen := by
  have short (text : List Char) : (text.take (myTmpBufLen - 1)).length < myTmpBufLen := by
    rw [List.length_take, myTmpBufLen]
    omega
  unfold textSaid saidOf
  split <;> exact short _

/-- What a file says is read into the limits of the variables. -/
theorem inRange_settingsOf {ini : Ini} (content : Content) (inRange : ini.InRange) :
    (settingsOf content ini).InRange where
  maxSessions := limitSessions_bounds _
  loggingLevel := limitLevel_bounds _
  texts := by
    simp only [settingsOf, List.forall_mem_cons, length_textSaid, List.not_mem_nil,
      false_imp_iff, implies_true, and_self]
  sizes := by
    obtain ⟨allow, deny, ids⟩ := inRange.sizes
    simp only [settingsOf, serversSaid]
    refine ⟨?_, ?_, ?_⟩ <;> split <;> simp only [List.length_map, List.length_range, *]

/-- Whatever the file is, the process crashes or has settings within their limits. -/
theorem readIniFile_inRange {file : Option (List Char)} {result : Bool × Ini}
    (read : readIniFile .initial file = .ok result) : result.2.InRange := by
  have initial : Ini.initial.InRange := ⟨by decide, by decide, by decide, by decide⟩
  cases file with
  | none =>
      cases read
      exact initial
  | some file =>
      rw [((readIniFile_eq_ok _ _ _).mp read).1]
      exact inRange_settingsOf _ initial

theorem readIniFile_inRange_large :
    readIniFile .initial (some "[general]\nmaxsessions = 5000\nlogginglevel=0 ;few\n".toList) =
      .ok (true, { Ini.initial with loggingLevel := 0 }) ∧
        { Ini.initial with loggingLevel := 0 }.InRange := by
  have read : readIniFile .initial
      (some "[general]\nmaxsessions = 5000\nlogginglevel=0 ;few\n".toList) =
        .ok (true, { Ini.initial with loggingLevel := 0 }) := by decide +kernel
  exact ⟨read, readIniFile_inRange read⟩

end Repeater
