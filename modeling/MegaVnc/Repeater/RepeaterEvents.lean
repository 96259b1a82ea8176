import MegaVnc.Foundation.Text

/-! # The repeater's events and their lines

An event in the types of the repeater's C code, and the plain line that
`doEventWork` prints for it. Of an event's dump of extra information only the
structure that its number selects is read.
-/

namespace Repeater

open Text

/-- The four bytes of an address. -/
structure AddrParts where
  a : UInt8
  b : UInt8
  c : UInt8
  d : UInt8
deriving DecidableEq, Repr

/-- The data of the events about one connection. -/
structure ConnectionEvent where
  tableIndex : Int32
  code : Int64
  connMode : Int32
  peerIp : AddrParts
deriving DecidableEq

/-- The data of the events about a session. -/
structure SessionEvent where
  serverTableIndex : Int32
  viewerTableIndex : Int32
  code : Int64
  connMode : Int32
  serverIp : AddrParts
  viewerIp : AddrParts
deriving DecidableEq

/-- The data of the events about the repeater itself. -/
structure StartEndEvent where
  maxSessions : Int32
deriving DecidableEq

/-- The numbers of `repeaterEvents`, grouped by the structure they carry. -/
inductive ConnectionEventNum where
  | viewerConnect
  | viewerDisconnect
  | serverConnect
  | serverDisconnect
deriving DecidableEq, Repr

/-- The events about a session. -/
inductive SessionEventNum where
  | viewerServerSessionStart
  | viewerServerSessionEnd
deriving DecidableEq, Repr

/-- The events about the repeater itself. -/
inductive StartEndEventNum where
  | repeaterStartup
  | repeaterShutdown
  | repeaterHeartbeat
deriving DecidableEq, Repr

/-- The numbers of the events about one connection. -/
def ConnectionEventNum.toInt : ConnectionEventNum → Int
  | .viewerConnect => 0
  | .viewerDisconnect => 1
  | .serverConnect => 2
  | .serverDisconnect => 3

/-- The numbers of the events about a session. -/
def SessionEventNum.toInt : SessionEventNum → Int
  | .viewerServerSessionStart => 4
  | .viewerServerSessionEnd => 5

/-- The numbers of the events about the repeater. -/
def StartEndEventNum.toInt : StartEndEventNum → Int
  | .repeaterStartup => 6
  | .repeaterShutdown => 7
  | .repeaterHeartbeat => 8

/-- The number of an event and the part of the union that is read for it. -/
inductive ExtraInfo where
  | connection (eventNum : ConnectionEventNum) (connEv : ConnectionEvent)
  | session (eventNum : SessionEventNum) (sessEv : SessionEvent)
  | startEnd (eventNum : StartEndEventNum) (seEv : StartEndEvent)
deriving DecidableEq

/-- An event as it is put into the ring. -/
structure RepeaterEvent where
  timeStamp : Int64
  repeaterProcessId : Int32
  extraInfo : ExtraInfo
deriving DecidableEq

/-- The number of an event, whatever its kind. -/
def RepeaterEvent.eventNum (event : RepeaterEvent) : Int :=
  match event.extraInfo with
  | .connection eventNum _ => eventNum.toInt
  | .session eventNum _ => eventNum.toInt
  | .startEnd eventNum _ => eventNum.toInt

/-- The version of all messages. -/
def repEventVersion : Int := 1

/-- The size of the buffer of a message. -/
def maxEventMsgLen : Nat := 200

/-- The formats of the plain lines; the formats of HTTP requests are not used
for them. -/
def connectionFormat : String :=
  "EvMsgVer:%d,EvNum:%d,Time:%ld,Pid:%d,TblInd:%d,Code:%ld,Mode:%d,Ip:%d.%d.%d.%d\n"

/-- The format of the events about a session. -/
def sessionFormat : String :=
  "EvMsgVer:%d,EvNum:%d,Time:%ld,Pid:%d,SvrTblInd:%d,VwrTblInd:%d,Code:%ld,Mode:%d," ++
    "SvrIp:%d.%d.%d.%d,VwrIp:%d.%d.%d.%d\n"

/-- The format of the events about the repeater. -/
def startEndFormat : String :=
  "EvMsgVer:%d,EvNum:%d,Time:%ld,Pid:%d,MaxSessions:%d\n"

/-- The arguments that an address gives to a format. -/
def AddrParts.toInts (address : AddrParts) : List Int :=
  [address.a.toNat, address.b.toNat, address.c.toNat, address.d.toNat]

/-- The arguments every format starts with. -/
def RepeaterEvent.header (event : RepeaterEvent) : List Int :=
  [repEventVersion, event.eventNum, event.timeStamp.toInt, event.repeaterProcessId.toInt]

/-- The message built in `doEventWork`, its newline included. -/
def doEventWork (event : RepeaterEvent) : List Char :=
  match event.extraInfo with
  | .connection _ connEv =>
      snprintf maxEventMsgLen connectionFormat.toList
        (event.header ++ [connEv.tableIndex.toInt, connEv.code.toInt, connEv.connMode.toInt] ++
          connEv.peerIp.toInts)
  | .session _ sessEv =>
      snprintf maxEventMsgLen sessionFormat.toList
        (event.header ++ [sessEv.serverTableIndex.toInt, sessEv.viewerTableIndex.toInt,
          sessEv.code.toInt, sessEv.connMode.toInt] ++ sessEv.serverIp.toInts ++
          sessEv.viewerIp.toInts)
  | .startEnd _ seEv =>
      snprintf maxEventMsgLen startEndFormat.toList
        (event.header ++ [seEv.maxSessions.toInt])

/-- The codec of the receiver delivers what stands before the newline. -/
def lf (bytes : List Char) : String :=
  String.ofList (bytes.takeWhile fun char => char ≠ '\n')

/-- The line the application receives for an event. -/
def RepeaterEvent.line (event : RepeaterEvent) : String :=
  lf (doEventWork event)

end Repeater
