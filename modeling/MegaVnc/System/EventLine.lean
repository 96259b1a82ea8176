import MegaVnc.Repeater.RepeaterEvents
import MegaVnc.Tcp.EventMessage

/-! # From the repeater's event to the application's message

The line of an event is a list of clean fields, short enough for the repeater's
buffer, and the application reads each field back. The ranges of the two sides
agree on every field but the time, which the application reads as an `int`.
-/

namespace MegaVnc

open Fallible Repeater Text MessageService

/-- An address as the application shows it. -/
def dotted (address : AddrParts) : String :=
  Nat.repr address.a.toNat ++ "." ++ Nat.repr address.b.toNat ++ "." ++
    Nat.repr address.c.toNat ++ "." ++ Nat.repr address.d.toNat

/-- The message with exactly the values of the event. -/
def decoded (event : RepeaterEvent) : EventMessage :=
  match event.extraInfo with
  | .connection eventNum connEv =>
      { evMsgVer := repEventVersion
        evNum := eventNum.toInt
        time := event.timeStamp.toInt
        pid := event.repeaterProcessId.toInt
        tblInd := connEv.tableIndex.toInt
        code := connEv.code.toInt
        mode := connEv.connMode.toInt
        ip := some (dotted connEv.peerIp) }
  | .session eventNum sessEv =>
      { evMsgVer := repEventVersion
        evNum := eventNum.toInt
        time := event.timeStamp.toInt
        pid := event.repeaterProcessId.toInt
        svrTblInd := sessEv.serverTableIndex.toInt
        vwrTblInd := sessEv.viewerTableIndex.toInt
        code := sessEv.code.toInt
        mode := sessEv.connMode.toInt
        svrIp := some (dotted sessEv.serverIp)
        vwrIp := some (dotted sessEv.viewerIp) }
  | .startEnd eventNum seEv =>
      { evMsgVer := repEventVersion
        evNum := eventNum.toInt
        time := event.timeStamp.toInt
        pid := event.repeaterProcessId.toInt
        maxSessions := seEv.maxSessions.toInt }

/-! ### The line of an event is a list of fields -/

/-- The fields that all messages begin with. -/
def headerFields (event : RepeaterEvent) : List (String × List Char) :=
  [("EvMsgVer", decimal repEventVersion), ("EvNum", decimal event.eventNum),
    ("Time", decimal event.timeStamp.toInt), ("Pid", decimal event.repeaterProcessId.toInt)]

/-- The fields of an event's line. -/
def eventFields (event : RepeaterEvent) : List (String × List Char) :=
  match event.extraInfo with
  | .connection _ connEv =>
      headerFields event ++ [("TblInd", decimal connEv.tableIndex.toInt),
        ("Code", decimal connEv.code.toInt), ("Mode", decimal connEv.connMode.toInt),
        ("Ip", (dotted connEv.peerIp).toList)]
  | .session _ sessEv =>
      headerFields event ++ [("SvrTblInd", decimal sessEv.serverTableIndex.toInt),
        ("VwrTblInd", decimal sessEv.viewerTableIndex.toInt),
        ("Code", decimal sessEv.code.toInt), ("Mode", decimal sessEv.connMode.toInt),
        ("SvrIp", (dotted sessEv.serverIp).toList), ("VwrIp", (dotted sessEv.viewerIp).toList)]
  | .startEnd _ seEv =>
      headerFields event ++ [("MaxSessions", decimal seEv.maxSessions.toInt)]

/-- The characters of an address. -/
theorem dotted_toList (address : AddrParts) :
    (dotted address).toList = decimal address.a.toNat ++ '.' :: (decimal address.b.toNat ++
      '.' :: (decimal address.c.toNat ++ '.' :: decimal address.d.toNat)) := by
  have printed (value : Nat) : (Nat.repr value).toList = decimal value := by
    simp only [Nat.repr, String.toList_ofList]
    rfl
  simp only [dotted, String.toList_append, printed, List.append_assoc]
  rfl

/-- An address has digits and points alone. -/
theorem not_mem_dotted {address : AddrParts} {char : Char} (notDigit : char.isDigit = false)
    (notMinus : char ≠ '-') (notDot : char ≠ '.') : char ∉ (dotted address).toList := by
  have clean (value : Int) : char ∉ decimal value := not_mem_decimal notDigit notMinus
  simp only [dotted_toList, List.mem_append, List.mem_cons, not_or]
  exact ⟨clean _, notDot, clean _, notDot, clean _, notDot, clean _⟩

/-- An address has no character that separates fields. -/
theorem clean_dotted (address : AddrParts) : Clean (dotted address).toList := by
  refine ⟨?_, not_mem_dotted (by decide) (by decide) (by decide),
    not_mem_dotted (by decide) (by decide) (by decide)⟩
  rw [dotted_toList]
  simp only [ne_eq, List.append_eq_nil_iff, reduceCtorEq, and_false, not_false_eq_true]

/-- No field of an event has such a character. -/
theorem clean_eventFields (event : RepeaterEvent) :
    ∀ field ∈ eventFields event, Clean field.1.toList ∧ Clean field.2 := by
  unfold eventFields headerFields
  split <;> simp only [List.cons_append, List.nil_append, List.forall_mem_cons] <;>
    simp only [clean_decimal, clean_dotted, and_true] <;> decide

/-! ### The buffer holds every line -/

theorem length_int (value : Int32) : (decimal value.toInt).length ≤ 11 := by
  have low := value.le_toInt
  have high := value.toInt_lt
  exact length_decimal_le (by decide) (by omega)

theorem length_long (value : Int64) : (decimal value.toInt).length ≤ 20 := by
  have low := value.le_toInt
  have high := value.toInt_lt
  exact length_decimal_le (by decide) (by omega)

/-- An address is written with at most fifteen characters. -/
theorem length_dotted (address : AddrParts) : (dotted address).toList.length ≤ 15 := by
  have byte (value : UInt8) : (decimal value.toNat).length ≤ 3 := by
    have high := value.toNat_lt
    exact length_decimal_le_of_nonneg (by decide) (by omega) (by omega)
  have first := byte address.a
  have second := byte address.b
  have third := byte address.c
  have fourth := byte address.d
  rw [dotted_toList]
  simp only [List.length_append, List.length_cons]
  omega

/-- There are nine numbers of events. -/
theorem eventNum_mem (event : RepeaterEvent) : event.eventNum ∈ [0, 1, 2, 3, 4, 5, 6, 7, 8] := by
  unfold RepeaterEvent.eventNum
  split
  · next eventNum _ _ => cases eventNum <;> decide
  · next eventNum _ _ => cases eventNum <;> decide
  · next eventNum _ _ => cases eventNum <;> decide

theorem length_eventNum (event : RepeaterEvent) : (decimal event.eventNum).length = 1 := by
  have oneDigit : ∀ number ∈ [0, 1, 2, 3, 4, 5, 6, 7, 8], (decimal number).length = 1 := by decide
  exact oneDigit event.eventNum (eventNum_mem event)

/-- A field takes its key, its value, a colon and at most one comma. -/
theorem length_joinFields_le (fields : List (String × List Char)) :
    (joinFields fields).length ≤
      (fields.map fun field => field.1.toList.length + field.2.length + 2).sum := by
  unfold joinFields
  induction fields with
  | nil => exact Nat.le_refl 0
  | cons field rest ih =>
      have text : (fieldText field).length = field.1.toList.length + field.2.length + 1 := by
        simp only [fieldText, List.length_append, List.length_cons]
        omega
      cases rest with
      | nil =>
          simp only [List.map_cons, List.map_nil, List.intercalate, List.intersperse,
            List.flatten_cons, List.flatten_nil, List.length_append, List.length_nil,
            List.sum_cons, List.sum_nil]
          omega
      | cons next others =>
          have joined : [','].intercalate ((field :: next :: others).map fieldText) =
              fieldText field ++ ',' :: [','].intercalate ((next :: others).map fieldText) := rfl
          rw [joined, List.length_append, List.length_cons]
          simp only [List.map_cons, List.sum_cons] at ih ⊢
          omega

/-- The longest line is that of a session. -/
theorem length_eventLine (event : RepeaterEvent) :
    (joinFields (eventFields event)).length < maxEventMsgLen - 1 := by
  refine Nat.lt_of_le_of_lt (length_joinFields_le _) ?_
  have version : (decimal repEventVersion).length = 1 := by decide
  have number := length_eventNum event
  have time := length_long event.timeStamp
  have pid := length_int event.repeaterProcessId
  have keys : "EvMsgVer".toList.length = 8 ∧ "EvNum".toList.length = 5 ∧
      "Time".toList.length = 4 ∧ "Pid".toList.length = 3 := by decide
  have placeKeys : "Code".toList.length = 4 ∧ "Mode".toList.length = 4 := by decide
  unfold eventFields headerFields
  split
  · next eventNum connEv _ =>
      have index := length_int connEv.tableIndex
      have code := length_long connEv.code
      have mode := length_int connEv.connMode
      have ip := length_dotted connEv.peerIp
      have ownKeys : "TblInd".toList.length = 6 ∧ "Ip".toList.length = 2 := by decide
      simp only [List.cons_append, List.nil_append, List.map_cons, List.map_nil, List.sum_cons,
        List.sum_nil, maxEventMsgLen]
      omega
  · next eventNum sessEv _ =>
      have server := length_int sessEv.serverTableIndex
      have viewer := length_int sessEv.viewerTableIndex
      have code := length_long sessEv.code
      have mode := length_int sessEv.connMode
      have serverIp := length_dotted sessEv.serverIp
      have viewerIp := length_dotted sessEv.viewerIp
      have ownKeys : "SvrTblInd".toList.length = 9 ∧ "VwrTblInd".toList.length = 9 ∧
          "SvrIp".toList.length = 5 ∧ "VwrIp".toList.length = 5 := by decide
      simp only [List.cons_append, List.nil_append, List.map_cons, List.map_nil, List.sum_cons,
        List.sum_nil, maxEventMsgLen]
      omega
  · next eventNum seEv _ =>
      have sessions := length_int seEv.maxSessions
      have ownKey : "MaxSessions".toList.length = 11 := by decide
      simp only [List.cons_append, List.nil_append, List.map_cons, List.map_nil, List.sum_cons,
        List.sum_nil, maxEventMsgLen]
      omega

/-! ### The printed line -/

/-- The format of the events about one connection writes their fields. -/
theorem printf_connection (version number time pid index code mode : Int)
    (address : AddrParts) :
    printf connectionFormat.toList
        ([version, number, time, pid] ++ [index, code, mode] ++ address.toInts) =
      joinFields [("EvMsgVer", decimal version), ("EvNum", decimal number),
        ("Time", decimal time), ("Pid", decimal pid), ("TblInd", decimal index),
        ("Code", decimal code), ("Mode", decimal mode), ("Ip", (dotted address).toList)] ++
        ['\n'] := by
  simp only [joinFields, fieldText, dotted_toList, List.map_cons, List.map_nil, List.intercalate,
    List.intersperse, List.flatten_cons, List.flatten_nil, List.append_assoc, List.cons_append,
    List.nil_append]
  rfl

set_option maxRecDepth 4000 in

/-- The format of the events about a session writes their line. -/
theorem printf_session (version number time pid server viewer code mode : Int)
    (serverAddress viewerAddress : AddrParts) :
    printf sessionFormat.toList ([version, number, time, pid] ++ [server, viewer, code, mode] ++
        serverAddress.toInts ++ viewerAddress.toInts) =
      joinFields [("EvMsgVer", decimal version), ("EvNum", decimal number),
        ("Time", decimal time), ("Pid", decimal pid), ("SvrTblInd", decimal server),
        ("VwrTblInd", decimal viewer), ("Code", decimal code), ("Mode", decimal mode),
        ("SvrIp", (dotted serverAddress).toList), ("VwrIp", (dotted viewerAddress).toList)] ++
        ['\n'] := by
  simp only [joinFields, fieldText, dotted_toList, List.map_cons, List.map_nil, List.intercalate,
    List.intersperse, List.flatten_cons, List.flatten_nil, List.append_assoc, List.cons_append,
    List.nil_append]
  rfl

/-- The format of the events about the repeater writes their line. -/
theorem printf_startEnd (version number time pid sessions : Int) :
    printf startEndFormat.toList ([version, number, time, pid] ++ [sessions]) =
      joinFields [("EvMsgVer", decimal version), ("EvNum", decimal number),
        ("Time", decimal time), ("Pid", decimal pid), ("MaxSessions", decimal sessions)] ++
        ['\n'] := by
  simp only [joinFields, fieldText, List.map_cons, List.map_nil, List.intercalate,
    List.intersperse, List.flatten_cons, List.flatten_nil, List.append_assoc, List.cons_append,
    List.nil_append]
  rfl

/-- What `doEventWork` prints, none of it cut off. -/
theorem doEventWork_eq (event : RepeaterEvent) :
    doEventWork event = joinFields (eventFields event) ++ ['\n'] := by
  have whole : (joinFields (eventFields event) ++ ['\n']).take (maxEventMsgLen - 1) =
      joinFields (eventFields event) ++ ['\n'] := by
    apply List.take_of_length_le
    rw [List.length_append, List.length_singleton]
    exact length_eventLine event
  rw [← whole]
  obtain ⟨timeStamp, pid, extraInfo⟩ := event
  cases extraInfo with
  | connection eventNum connEv =>
      exact congrArg (List.take _) (printf_connection _ _ _ _ _ _ _ _)
  | session eventNum sessEv =>
      exact congrArg (List.take _) (printf_session _ _ _ _ _ _ _ _ _ _)
  | startEnd eventNum seEv =>
      exact congrArg (List.take _) (printf_startEnd _ _ _ _ _)

/-- The line ends at the only newline printed. -/
theorem line_eq (event : RepeaterEvent) :
    event.line = String.ofList (joinFields (eventFields event)) := by
  have number (value : Int) : '\n' ∉ decimal value := not_mem_decimal (by decide) (by decide)
  have address (address : AddrParts) : '\n' ∉ (dotted address).toList :=
    not_mem_dotted (by decide) (by decide) (by decide)
  have cleanFields : ∀ field ∈ eventFields event, '\n' ∉ fieldText field := by
    intro field member
    have cleanParts : '\n' ∉ field.1.toList ∧ '\n' ∉ field.2 := by
      revert field
      unfold eventFields headerFields
      split <;> simp only [List.cons_append, List.nil_append, List.forall_mem_cons] <;>
        simp only [number, address, not_false_eq_true, and_true] <;> decide
    exact not_mem_fieldText cleanParts.1 cleanParts.2 (by decide)
  have clean : ∀ char ∈ joinFields (eventFields event), decide (char ≠ '\n') = true := by
    intro char member
    rw [decide_eq_true_eq]
    rintro rfl
    exact not_mem_joinFields (by decide) cleanFields member
  rw [RepeaterEvent.line, lf, doEventWork_eq, List.takeWhile_append_of_pos clean]
  simp only [List.takeWhile_cons, ne_eq, not_true_eq_false, decide_false, Bool.false_eq_true,
    ↓reduceIte, List.append_nil]

/-! ### Reading the line back -/

/-- The map the application makes of an event's line. -/
def lineKv (event : RepeaterEvent) : MsgKv :=
  ((eventFields event).map fun field => (field.1.toList, field.2)).reverse

theorem distinct_eventFields (event : RepeaterEvent) :
    ((eventFields event).map Prod.fst).Nodup := by
  unfold eventFields headerFields
  split <;> simp only [List.cons_append, List.nil_append, List.map_cons, List.map_nil] <;> decide

variable {event : RepeaterEvent} {key : String}

theorem getText_lineKv {value : List Char} (member : (key, value) ∈ eventFields event) :
    getText (lineKv event) key = some value :=
  getText_of_mem (distinct_eventFields event) member

/-- An `int` that was written is read back. -/
theorem getInteger_int {value : Int32} (member : (key, decimal value.toInt) ∈ eventFields event) :
    getInteger (lineKv event) key = .ok value.toInt := by
  have low := value.le_toInt
  have high := value.toInt_lt
  rw [getInteger_decimal (getText_lineKv member)]
  exact if_pos ⟨low, Int.le_sub_one_of_lt high⟩

/-- A `long` that was written is read back. -/
theorem getLong_long {value : Int64} (member : (key, decimal value.toInt) ∈ eventFields event) :
    getLong (lineKv event) key = .ok value.toInt := by
  have low := value.le_toInt
  have high := value.toInt_lt
  rw [getLong_decimal (getText_lineKv member)]
  exact if_pos ⟨low, Int.le_sub_one_of_lt high⟩

theorem getString_dotted {address : AddrParts}
    (member : (key, (dotted address).toList) ∈ eventFields event) :
    getString (lineKv event) key = some (dotted address) := by
  rw [getString, getText_lineKv member, Option.map_some, String.ofList_toList]

/-- The version is read back. -/
theorem getInteger_version : getInteger (lineKv event) "EvMsgVer" = .ok repEventVersion := by
  have member : ("EvMsgVer", decimal repEventVersion) ∈ eventFields event := by
    unfold eventFields headerFields
    split <;> simp only [List.cons_append, List.mem_cons, true_or]
  rw [getInteger_decimal (getText_lineKv member)]
  rfl

/-- The number of the event is read back. -/
theorem getInteger_eventNum : getInteger (lineKv event) "EvNum" = .ok event.eventNum := by
  have member : ("EvNum", decimal event.eventNum) ∈ eventFields event := by
    unfold eventFields headerFields
    split <;> simp only [List.cons_append, List.mem_cons, true_or, or_true]
  have small : ∀ number ∈ [0, 1, 2, 3, 4, 5, 6, 7, 8], -2 ^ 31 ≤ number ∧
      number ≤ (2 ^ 31 - 1 : Int) := by decide
  rw [getInteger_decimal (getText_lineKv member)]
  exact if_pos (small event.eventNum (eventNum_mem event))

/-- The time fits an `int`. -/
def TimeFits (event : RepeaterEvent) : Prop :=
  -2 ^ 31 ≤ event.timeStamp.toInt ∧ event.timeStamp.toInt ≤ 2 ^ 31 - 1

instance : Decidable (TimeFits event) :=
  inferInstanceAs (Decidable (_ ∧ _))

/-- The time is read back as long as it is an `int`; the code writes a `long`. -/
theorem getInteger_time : getInteger (lineKv event) "Time" =
    if TimeFits event then .ok event.timeStamp.toInt else .error .numberFormatException := by
  have member : ("Time", decimal event.timeStamp.toInt) ∈ eventFields event := by
    unfold eventFields headerFields
    split <;> simp only [List.cons_append, List.mem_cons, true_or, or_true]
  exact getInteger_decimal (getText_lineKv member)

/-- The pid is read back. -/
theorem getInteger_pid :
    getInteger (lineKv event) "Pid" = .ok event.repeaterProcessId.toInt := by
  apply getInteger_int
  unfold eventFields headerFields
  split <;> simp only [List.cons_append, List.mem_cons, true_or, or_true]

/-- The events about one connection are read back when their time fits. -/
theorem readConnectionEvent_lineKv {eventNum : ConnectionEventNum} {connEv : ConnectionEvent}
    (shape : event.extraInfo = .connection eventNum connEv) :
    readConnectionEvent (lineKv event) =
      if TimeFits event then .ok (decoded event) else .error .numberFormatException := by
  have index : getInteger (lineKv event) "TblInd" = .ok connEv.tableIndex.toInt :=
    getInteger_int (by simp [eventFields, shape])
  have code : getLong (lineKv event) "Code" = .ok connEv.code.toInt :=
    getLong_long (by simp [eventFields, shape])
  have mode : getInteger (lineKv event) "Mode" = .ok connEv.connMode.toInt :=
    getInteger_int (by simp [eventFields, shape])
  have ip : getString (lineKv event) "Ip" = some (dotted connEv.peerIp) :=
    getString_dotted (by simp [eventFields, shape])
  have number : event.eventNum = eventNum.toInt := by rw [RepeaterEvent.eventNum, shape]
  rw [readConnectionEvent, getInteger_version, ok_bind, getInteger_eventNum, ok_bind,
    getInteger_time]
  by_cases fits : TimeFits event
  · rw [if_pos fits, if_pos fits, ok_bind, getInteger_pid, ok_bind, index, ok_bind, code, ok_bind,
      mode, ok_bind, ip, number, decoded, shape]
    rfl
  · rw [if_neg fits, if_neg fits, error_bind]

/-- The fields of an event about a session are read back. -/
theorem readSessionEvent_lineKv {eventNum : SessionEventNum} {sessEv : SessionEvent}
    (shape : event.extraInfo = .session eventNum sessEv) :
    readSessionEvent (lineKv event) =
      if TimeFits event then .ok (decoded event) else .error .numberFormatException := by
  have server : getInteger (lineKv event) "SvrTblInd" = .ok sessEv.serverTableIndex.toInt :=
    getInteger_int (by simp [eventFields, shape])
  have viewer : getInteger (lineKv event) "VwrTblInd" = .ok sessEv.viewerTableIndex.toInt :=
    getInteger_int (by simp [eventFields, shape])
  have code : getLong (lineKv event) "Code" = .ok sessEv.code.toInt :=
    getLong_long (by simp [eventFields, shape])
  have mode : getInteger (lineKv event) "Mode" = .ok sessEv.connMode.toInt :=
    getInteger_int (by simp [eventFields, shape])
  have serverIp : getString (lineKv event) "SvrIp" = some (dotted sessEv.serverIp) :=
    getString_dotted (by simp [eventFields, shape])
  have viewerIp : getString (lineKv event) "VwrIp" = some (dotted sessEv.viewerIp) :=
    getString_dotted (by simp [eventFields, shape])
  have number : event.eventNum = eventNum.toInt := by rw [RepeaterEvent.eventNum, shape]
  rw [readSessionEvent, getInteger_version, ok_bind, getInteger_eventNum, ok_bind,
    getInteger_time]
  by_cases fits : TimeFits event
  · rw [if_pos fits, if_pos fits, ok_bind, getInteger_pid, ok_bind, server, ok_bind, viewer,
      ok_bind, code, ok_bind, mode, ok_bind, serverIp, viewerIp, number, decoded, shape]
    rfl
  · rw [if_neg fits, if_neg fits, error_bind]

/-- The fields of an event about the repeater are read back. -/
theorem readStartEndEvent_lineKv {eventNum : StartEndEventNum} {seEv : StartEndEvent}
    (shape : event.extraInfo = .startEnd eventNum seEv) :
    readStartEndEvent (lineKv event) =
      if TimeFits event then .ok (decoded event) else .error .numberFormatException := by
  have sessions : getInteger (lineKv event) "MaxSessions" = .ok seEv.maxSessions.toInt :=
    getInteger_int (by simp [eventFields, shape])
  have number : event.eventNum = eventNum.toInt := by rw [RepeaterEvent.eventNum, shape]
  rw [readStartEndEvent, getInteger_version, ok_bind, getInteger_eventNum, ok_bind,
    getInteger_time]
  by_cases fits : TimeFits event
  · rw [if_pos fits, if_pos fits, ok_bind, getInteger_pid, ok_bind, sessions, ok_bind, number,
      decoded, shape]
    rfl
  · rw [if_neg fits, if_neg fits, error_bind]

/-- Each kind of event is read with its own fields; only the time can fail. -/
theorem readEvent_lineKv (event : RepeaterEvent) :
    readEvent (lineKv event) =
      if TimeFits event then .ok (decoded event) else .error .numberFormatException := by
  rw [readEvent, getInteger_eventNum, ok_bind]
  cases shape : event.extraInfo with
  | connection eventNum connEv =>
      have number : event.eventNum = eventNum.toInt := by rw [RepeaterEvent.eventNum, shape]
      have connects : eventNum.toInt ∈ [0, 1, 2, 3] := by cases eventNum <;> decide
      rw [number, if_pos connects]
      exact readConnectionEvent_lineKv shape
  | session eventNum sessEv =>
      have number : event.eventNum = eventNum.toInt := by rw [RepeaterEvent.eventNum, shape]
      have other : eventNum.toInt ∉ [0, 1, 2, 3] := by cases eventNum <;> decide
      have session : eventNum.toInt ∈ [4, 5] := by cases eventNum <;> decide
      rw [number, if_neg other, if_pos session]
      exact readSessionEvent_lineKv shape
  | startEnd eventNum seEv =>
      have number : event.eventNum = eventNum.toInt := by rw [RepeaterEvent.eventNum, shape]
      have other : eventNum.toInt ∉ [0, 1, 2, 3] := by cases eventNum <;> decide
      have noSession : eventNum.toInt ∉ [4, 5] := by cases eventNum <;> decide
      have startEnd : eventNum.toInt ∈ [6, 7, 8] := by cases eventNum <;> decide
      rw [number, if_neg other, if_neg noSession, if_pos startEnd]
      exact readStartEndEvent_lineKv shape

/-- How the application reads an event's line. -/
theorem parseMessage_line (event : RepeaterEvent) :
    parseMessage event.line =
      if TimeFits event then .ok (decoded event) else .error .numberFormatException := by
  have present : eventFields event ≠ [] := by
    unfold eventFields headerFields
    split <;> exact List.cons_ne_nil _ _
  rw [line_eq, parseMessage, String.toList_ofList,
    putTokens_joinFields present (clean_eventFields event), ok_bind]
  exact readEvent_lineKv event

/-- The line of an event is read back as the event exactly until its time
reaches 2 ^ 31, in January 2038. -/
theorem parseMessage_line_iff (nonneg : 0 ≤ event.timeStamp.toInt) :
    parseMessage event.line = .ok (decoded event) ↔ event.timeStamp.toInt < 2 ^ 31 := by
  rw [parseMessage_line]
  constructor
  · intro parsed
    by_contra late
    have unfit : ¬ TimeFits event := fun fits => late (Int.lt_of_le_sub_one fits.2)
    rw [if_neg unfit] at parsed
    cases parsed
  · intro early
    exact if_pos ⟨by omega, Int.le_sub_one_of_lt early⟩

/-- A session that starts at a time, in seconds since 1970. -/
def sessionStartAt (timeStamp : Int64) : RepeaterEvent where
  timeStamp := timeStamp
  repeaterProcessId := 4321
  extraInfo := .session .viewerServerSessionStart
    { serverTableIndex := 0, viewerTableIndex := 3, code := 100, connMode := 2
      serverIp := ⟨192, 168, 0, 10⟩, viewerIp := ⟨10, 0, 0, 255⟩ }

theorem sessionStart_parsed :
    parseMessage (sessionStartAt 1704067200).line = .ok (decoded (sessionStartAt 1704067200)) ↔
      (sessionStartAt 1704067200).timeStamp.toInt < 2 ^ 31 :=
  parseMessage_line_iff (by decide)

/-- The time of the first second past the range of `int`. -/
theorem line_unread_from_2038 :
    ¬ ∀ event : RepeaterEvent, 0 ≤ event.timeStamp.toInt →
      parseMessage event.line = .ok (decoded event) := by
  intro reads
  have parsed := reads (sessionStartAt 2147483648) (by decide)
  rw [parseMessage_line, if_neg (by decide)] at parsed
  cases parsed

end MegaVnc
