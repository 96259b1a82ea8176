import MegaVnc.Foundation.Run
import MegaVnc.Foundation.Text

/-! # The versions of the viewer

The viewer in the browser reads protocol versions until one is that of a server; a
repeater is answered with the id of the PC. What a message of the WebSocket holds is any
piece of the stream, and the answers do not depend on the pieces.
-/

namespace MegaVnc

open Text Transition

/-- The bytes that have been received and not yet read, and those that have been sent. -/
structure Websock where
  rQ : List UInt8
  sQ : List UInt8

namespace Websock

/-- Whether fewer bytes than asked for have been received. -/
def rQwait (sock : Websock) (num : Nat) : Bool :=
  sock.rQ.length < num

/-- The next bytes of the receive queue as characters. -/
def rQshiftStr (sock : Websock) (len : Nat) : List Char × Websock :=
  ((sock.rQ.take len).map fun byte => Char.ofNat byte.toNat,
    { sock with rQ := sock.rQ.drop len })

/-- The characters are sent as bytes. -/
def sendString (sock : Websock) (str : List Char) : Websock :=
  { sock with sQ := sock.sQ ++ str.map fun char => char.toNat.toUInt8 }

end Websock

/-- How far the handshake has come. -/
inductive RfbInitState where
  | protocolVersion
  | security
  | failed (details : List Char)

/-- A viewer that connects. Its versions are counted in tenths. -/
structure Rfb where
  sock : Websock
  repeaterID : List Char
  rfbVersion : Nat
  rfbMaxVersion : Nat
  rfbInitState : RfbInitState

namespace Rfb

/-- The connection before any byte was received. -/
def start (repeaterID : List Char) : Rfb where
  sock := { rQ := [], sQ := [] }
  repeaterID := repeaterID
  rfbVersion := 0
  rfbMaxVersion := 38
  rfbInitState := .protocolVersion

/-- The version that is taken for the one a server names. -/
def versionOf (sversion : List Char) : Option Nat :=
  if sversion ∈ ["003.003".toList, "003.006".toList] then some 33
  else if sversion = "003.007".toList then some 37
  else if sversion ∈ ["003.008".toList, "003.889".toList, "004.000".toList, "004.001".toList,
    "005.000".toList] then some 38
  else none

/-- The id is filled up to 250 characters. -/
def idMessage (repeaterID : List Char) : List Char :=
  let repeaterID := "ID:".toList ++ repeaterID
  repeaterID ++ List.replicate (250 - repeaterID.length) '\x00'

/-- What is sent to a server for a version. -/
def clientVersion (rfbVersion : Nat) : List Char :=
  "RFB ".toList ++ ("00".toList ++ decimal (rfbVersion / 10 : Nat) ++ ".00".toList ++
    decimal (rfbVersion % 10 : Nat)) ++ ['\n']

/-- The second half of `_negotiateProtocolVersion`, after the version has been taken out of
the queue. -/
def answerVersion (rfb : Rfb) (sversion : List Char) : Bool × Rfb :=
  if sversion = "000.000".toList then
    (true, { rfb with sock := rfb.sock.sendString (idMessage rfb.repeaterID) })
  else
    match versionOf sversion with
    | none =>
        (false, { rfb with
          rfbInitState := .failed ("Invalid server version ".toList ++ sversion) })
    | some version =>
        let rfbVersion := if version > rfb.rfbMaxVersion then rfb.rfbMaxVersion else version
        (false, { rfb with
          rfbVersion := rfbVersion
          sock := rfb.sock.sendString (clientVersion rfbVersion)
          rfbInitState := .security })

/-- The result tells whether the next version is read at once. -/
def negotiateProtocolVersion (rfb : Rfb) : Bool × Rfb :=
  if rfb.sock.rQwait 12 then (false, rfb)
  else
    let (version, sock) := rfb.sock.rQshiftStr 12
    answerVersion { rfb with sock := sock } ((version.drop 4).take 7)

/-- Bytes that come later stay in the queue. -/
def received (rfb : Rfb) (bytes : List UInt8) : Rfb :=
  { rfb with sock := { rfb.sock with rQ := rfb.sock.rQ ++ bytes } }

/-- The answer to a version sends the id of the repeater, goes on to the security types, or
fails. -/
theorem answerVersion_cases (rfb : Rfb) (sversion : List Char) :
    (∃ str, rfb.answerVersion sversion = (true, { rfb with sock := rfb.sock.sendString str }) ∧
        ∀ bytes, (rfb.received bytes).answerVersion sversion =
          (true, received { rfb with sock := rfb.sock.sendString str } bytes)) ∨
      ∃ next, rfb.answerVersion sversion = (false, next) ∧
        next.rfbInitState ≠ .protocolVersion ∧
        ∀ bytes, (rfb.received bytes).answerVersion sversion = (false, next.received bytes) := by
  unfold answerVersion
  by_cases repeater : sversion = "000.000".toList
  · simp only [if_pos repeater]
    exact Or.inl ⟨_, rfl, fun bytes => rfl⟩
  · simp only [if_neg repeater]
    cases versionOf sversion with
    | none => exact Or.inr ⟨_, rfl, RfbInitState.noConfusion, fun bytes => rfl⟩
    | some version => exact Or.inr ⟨_, rfl, RfbInitState.noConfusion, fun bytes => rfl⟩

variable {rfb next : Rfb} {bytes : List UInt8}

theorem negotiateProtocolVersion_of_short (short : rfb.sock.rQ.length < 12) :
    rfb.negotiateProtocolVersion = (false, rfb) :=
  if_pos (decide_eq_true short)

/-- A version that is there is taken out of the queue, whatever follows it. Then either
the next one is read, or none any more. -/
theorem negotiateProtocolVersion_cases (long : 12 ≤ rfb.sock.rQ.length) :
    (∃ next, rfb.negotiateProtocolVersion = (true, next) ∧
        next.sock.rQ.length < rfb.sock.rQ.length ∧
        ∀ bytes, (rfb.received bytes).negotiateProtocolVersion = (true, next.received bytes)) ∨
      ∃ next, rfb.negotiateProtocolVersion = (false, next) ∧
        next.rfbInitState ≠ .protocolVersion ∧
        ∀ bytes, (rfb.received bytes).negotiateProtocolVersion = (false, next.received bytes) := by
  have here : ¬ rfb.sock.rQwait 12 = true := fun waits =>
    absurd (of_decide_eq_true waits) (by omega)
  have there (bytes : List UInt8) : ¬ (rfb.received bytes).sock.rQwait 12 = true := by
    intro waits
    have short : (rfb.sock.rQ ++ bytes).length < 12 := of_decide_eq_true waits
    rw [List.length_append] at short
    omega
  have shifted (bytes : List UInt8) : (rfb.received bytes).sock.rQshiftStr 12 =
      ((rfb.sock.rQshiftStr 12).1,
        { rfb.sock with rQ := rfb.sock.rQ.drop 12 ++ bytes }) := by
    simp only [received, Websock.rQshiftStr, List.take_append_of_le_length long,
      List.drop_append_of_le_length long]
  have less : (rfb.sock.rQ.drop 12).length < rfb.sock.rQ.length := by
    rw [List.length_drop]
    omega
  unfold negotiateProtocolVersion
  simp only [if_neg here, if_neg (there _), shifted]
  rcases answerVersion_cases { rfb with sock := (rfb.sock.rQshiftStr 12).2 }
    (((rfb.sock.rQshiftStr 12).1.drop 4).take 7) with
    ⟨str, answers, later⟩ | ⟨next, answers, stops, later⟩
  · exact Or.inl ⟨_, answers, less, later⟩
  · exact Or.inr ⟨next, answers, stops, later⟩

/-- A version that is answered has been taken from the queue. -/
theorem length_of_negotiates (goesOn : rfb.negotiateProtocolVersion = (true, next)) :
    next.sock.rQ.length < rfb.sock.rQ.length := by
  by_cases short : rfb.sock.rQ.length < 12
  · rw [negotiateProtocolVersion_of_short short] at goesOn
    cases goesOn
  · rcases negotiateProtocolVersion_cases (Nat.le_of_not_lt short) with
      ⟨other, taken, less, -⟩ | ⟨other, taken, -⟩
    · rw [goesOn] at taken
      cases taken
      exact less
    · rw [goesOn] at taken
      cases taken

/-- The loop of `_handleMessage` as long as it reads versions. -/
def initMsgs (rfb : Rfb) : Rfb :=
  match rfb.rfbInitState with
  | .protocolVersion =>
      match _goesOn : rfb.negotiateProtocolVersion with
      | (true, next) => initMsgs next
      | (false, next) => next
  | _ => rfb
termination_by rfb.sock.rQ.length
decreasing_by exact length_of_negotiates _goesOn

/-- A message of the WebSocket, with any number of bytes. -/
def handleMessage (rfb : Rfb) (bytes : List UInt8) : Rfb :=
  initMsgs (rfb.received bytes)

/-! ### Pieces of the stream -/

/-- After an answered version the loop goes on with the rest. -/
theorem initMsgs_of_goesOn (reads : rfb.rfbInitState = .protocolVersion)
    (goesOn : rfb.negotiateProtocolVersion = (true, next)) : initMsgs rfb = initMsgs next := by
  rw [initMsgs, reads]
  dsimp only
  split
  · next same => rw [goesOn] at same; cases same; rfl
  · next same => rw [goesOn] at same; cases same

/-- The loop stops where the version says so. -/
theorem initMsgs_of_stops (reads : rfb.rfbInitState = .protocolVersion)
    (stops : rfb.negotiateProtocolVersion = (false, next)) : initMsgs rfb = next := by
  rw [initMsgs, reads]
  dsimp only
  split
  · next same => rw [stops] at same; cases same
  · next same => rw [stops] at same; cases same; rfl

/-- The loop does nothing once the version is agreed. -/
theorem initMsgs_of_other (other : rfb.rfbInitState ≠ .protocolVersion) : initMsgs rfb = rfb := by
  rw [initMsgs]
  split
  · next same => exact (other same).elim
  · rfl

/-- Bytes may be handled as they come or together. -/
theorem initMsgs_received (rfb : Rfb) (bytes : List UInt8) :
    initMsgs ((initMsgs rfb).received bytes) = initMsgs (rfb.received bytes) := by
  induction size : rfb.sock.rQ.length using Nat.strongRecOn generalizing rfb with
  | ind size ih =>
      subst size
      by_cases reads : rfb.rfbInitState = .protocolVersion
      · have still : (rfb.received bytes).rfbInitState = .protocolVersion := reads
        by_cases short : rfb.sock.rQ.length < 12
        · rw [initMsgs_of_stops reads (negotiateProtocolVersion_of_short short)]
        · rcases negotiateProtocolVersion_cases (Nat.le_of_not_lt short) with
            ⟨next, goesOn, less, later⟩ | ⟨next, stops, ended, later⟩
          · rw [initMsgs_of_goesOn reads goesOn, initMsgs_of_goesOn still (later bytes)]
            exact ih _ less next rfl
          · have past : (next.received bytes).rfbInitState ≠ .protocolVersion := ended
            rw [initMsgs_of_stops reads stops, initMsgs_of_stops still (later bytes),
              initMsgs_of_other past]
      · rw [initMsgs_of_other reads]

/-- The viewer answers a stream in the same way however it arrives. -/
theorem run_handleMessage (rfb : Rfb) (first : List UInt8) (pieces : List (List UInt8)) :
    run handleMessage (rfb.handleMessage first) pieces =
      rfb.handleMessage (first ++ pieces.flatten) := by
  induction pieces generalizing first with
  | nil => rw [List.flatten_nil, List.append_nil, run_nil]
  | cons piece rest ih =>
      have joined : (rfb.handleMessage first).handleMessage piece =
          rfb.handleMessage (first ++ piece) := by
        unfold handleMessage
        rw [initMsgs_received]
        simp only [received, List.append_assoc]
      rw [run_cons, joined, ih, List.flatten_cons, List.append_assoc]

/-! ### The repeater's version -/

/-- What the repeater writes to a viewer first. -/
def repeaterVersion : List UInt8 :=
  "RFB 000.000\n".toList.map fun char => char.toNat.toUInt8

/-- However the version of the repeater is split, the viewer sends its id, once. -/
theorem sQ_run (repeaterID : List Char) {first : List UInt8} {pieces : List (List UInt8)}
    (whole : first ++ pieces.flatten = repeaterVersion) :
    (run handleMessage ((start repeaterID).handleMessage first) pieces).sock.sQ =
      (idMessage repeaterID).map fun char => char.toNat.toUInt8 := by
  let answered : Rfb := { start repeaterID with
    sock := { rQ := [], sQ := (idMessage repeaterID).map fun char => char.toNat.toUInt8 } }
  have goesOn : ((start repeaterID).received repeaterVersion).negotiateProtocolVersion =
      (true, answered) := rfl
  have stops : answered.negotiateProtocolVersion = (false, answered) :=
    negotiateProtocolVersion_of_short (Nat.zero_lt_succ 11)
  rw [run_handleMessage, whole, handleMessage, initMsgs_of_goesOn rfl goesOn,
    initMsgs_of_stops rfl stops]

end Rfb

end MegaVnc
