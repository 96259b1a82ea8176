import Mathlib.Data.List.Nodup
import MegaVnc.Domain.Entity
import MegaVnc.Domain.Exception
import MegaVnc.Foundation.Fallible
import MegaVnc.Foundation.Text

/-! # Decoding an event line

The first half of `processMessage`: the line is split into key and value pairs,
and the fields of the event's kind are read from them.
-/

namespace MegaVnc

open Fallible Text

/-- Fields that an event's kind does not carry keep the defaults 0 and null. -/
structure EventMessage where
  evMsgVer : Int
  evNum : Int
  time : Long
  pid : Int
  tblInd : Int := 0
  code : Long := 0
  mode : Int := 0
  ip : Option String := none
  svrTblInd : Int := 0
  vwrTblInd : Int := 0
  svrIp : Option String := none
  vwrIp : Option String := none
  maxSessions : Int := 0
deriving DecidableEq, Repr

/-- The code of the message is the repeaterId of a PC. -/
def EventMessage.getRepeaterId (eventMessage : EventMessage) : Long :=
  eventMessage.code

/-- `Integer.parseInt`, which takes the decimal digits of any script. -/
def parseInteger (text : List Char) : Option Int :=
  parseWithin (-2 ^ 31) (2 ^ 31 - 1) text

/-- `Long.parseLong`, likewise. -/
def parseLong (text : List Char) : Option Long :=
  parseWithin (-2 ^ 63) (2 ^ 63 - 1) text

namespace MessageService

/-- The map of keys and values, the latest put first. -/
abbrev MsgKv := List (List Char × List Char)

/-- A token without a key and a value is an array index out of bounds. -/
def putTokens (msgKv : MsgKv) : List (List Char) → Except Exception MsgKv
  | [] => .ok msgKv
  | token :: tokens =>
      match split ':' token with
      | key :: value :: _ => putTokens ((key, value) :: msgKv) tokens
      | _ => .error .arrayIndexOutOfBoundsException

/-- The value of a key, if the message has it. -/
def getText (msgKv : MsgKv) (key : String) : Option (List Char) :=
  msgKv.lookup key.toList

/-- The value as a text. -/
def getString (msgKv : MsgKv) (key : String) : Option String :=
  (getText msgKv key).map String.ofList

/-- Parsing a missing value is a number format exception as well. -/
def getInteger (msgKv : MsgKv) (key : String) : Except Exception Int :=
  orElseThrow ((getText msgKv key).bind parseInteger) .numberFormatException

/-- The value as a `Long`, or the exception of `Long.parseLong`. -/
def getLong (msgKv : MsgKv) (key : String) : Except Exception Long :=
  orElseThrow ((getText msgKv key).bind parseLong) .numberFormatException

/-- Connection events, by kind: VIEWER_CONNECT, VIEWER_DISCONNECT,
SERVER_CONNECT, SERVER_DISCONNECT. -/
def readConnectionEvent (msgKv : MsgKv) : Except Exception EventMessage := do
  let evMsgVer ← getInteger msgKv "EvMsgVer"
  let evNum ← getInteger msgKv "EvNum"
  let time ← getInteger msgKv "Time"
  let pid ← getInteger msgKv "Pid"
  let tblInd ← getInteger msgKv "TblInd"
  let code ← getLong msgKv "Code"
  let mode ← getInteger msgKv "Mode"
  pure { evMsgVer, evNum, time, pid, tblInd, code, mode, ip := getString msgKv "Ip" }

/-- The fields of the events 4 and 5. -/
def readSessionEvent (msgKv : MsgKv) : Except Exception EventMessage := do
  let evMsgVer ← getInteger msgKv "EvMsgVer"
  let evNum ← getInteger msgKv "EvNum"
  let time ← getInteger msgKv "Time"
  let pid ← getInteger msgKv "Pid"
  let svrTblInd ← getInteger msgKv "SvrTblInd"
  let vwrTblInd ← getInteger msgKv "VwrTblInd"
  let code ← getLong msgKv "Code"
  let mode ← getInteger msgKv "Mode"
  pure
    { evMsgVer, evNum, time, pid, svrTblInd, vwrTblInd, code, mode
      svrIp := getString msgKv "SvrIp"
      vwrIp := getString msgKv "VwrIp" }

/-- The fields of the events 6 to 8. -/
def readStartEndEvent (msgKv : MsgKv) : Except Exception EventMessage := do
  let evMsgVer ← getInteger msgKv "EvMsgVer"
  let evNum ← getInteger msgKv "EvNum"
  let time ← getInteger msgKv "Time"
  let pid ← getInteger msgKv "Pid"
  let maxSessions ← getInteger msgKv "MaxSessions"
  pure { evMsgVer, evNum, time, pid, maxSessions }

/-- The number of the event tells which fields are read. -/
def readEvent (msgKv : MsgKv) : Except Exception EventMessage := do
  let evNum ← getInteger msgKv "EvNum"
  if evNum ∈ [0, 1, 2, 3] then readConnectionEvent msgKv
  else if evNum ∈ [4, 5] then readSessionEvent msgKv
  else if evNum ∈ [6, 7, 8] then readStartEndEvent msgKv
  else .error (.runtimeException "Message parse exception")

/-- The event a line carries. -/
def parseMessage (message : String) : Except Exception EventMessage := do
  let msgKv ← putTokens [] (split ',' message.toList)
  readEvent msgKv

/-! ### Lines of well-formed fields -/

/-- A text that can be the key or the value of a field. -/
def Clean (text : List Char) : Prop :=
  text ≠ [] ∧ ',' ∉ text ∧ ':' ∉ text

instance (text : List Char) : Decidable (Clean text) :=
  inferInstanceAs (Decidable (_ ∧ _))

theorem clean_decimal (value : Int) : Clean (decimal value) :=
  ⟨decimal_ne_nil value, not_mem_decimal (by decide) (by decide),
    not_mem_decimal (by decide) (by decide)⟩

/-- The text of a field. -/
def fieldText (field : String × List Char) : List Char :=
  field.1.toList ++ ':' :: field.2

/-- A line without its newline. -/
def joinFields (fields : List (String × List Char)) : List Char :=
  [','].intercalate (fields.map fieldText)

variable {fields : List (String × List Char)} {field : String × List Char}

theorem not_mem_fieldText {char : Char} (key : char ∉ field.1.toList) (value : char ∉ field.2)
    (other : char ≠ ':') : char ∉ fieldText field := by
  simp only [fieldText, List.mem_append, List.mem_cons, not_or]
  exact ⟨key, other, value⟩

/-- Joined fields have no other characters than theirs and the comma. -/
theorem not_mem_joinFields {char : Char} (other : char ≠ ',')
    (clean : ∀ field ∈ fields, char ∉ fieldText field) : char ∉ joinFields fields := by
  unfold joinFields
  induction fields with
  | nil => exact List.not_mem_nil
  | cons field rest ih =>
      have later := ih fun next member => clean next (List.mem_cons_of_mem _ member)
      have first := clean field List.mem_cons_self
      cases rest with
      | nil =>
          have alone : [','].intercalate ([field].map fieldText) = fieldText field :=
            List.append_nil _
          rwa [alone]
      | cons next others =>
          have joined : [','].intercalate ((field :: next :: others).map fieldText) =
              fieldText field ++ ',' :: [','].intercalate ((next :: others).map fieldText) := rfl
          rw [joined, List.mem_append, List.mem_cons, not_or, not_or]
          exact ⟨first, other, later⟩

/-- Clean fields are read as the keys and values they are made of. -/
theorem putTokens_fields (msgKv : MsgKv)
    (clean : ∀ field ∈ fields, Clean field.1.toList ∧ Clean field.2) :
    putTokens msgKv (fields.map fieldText) =
      .ok ((fields.map fun field => (field.1.toList, field.2)).reverse ++ msgKv) := by
  induction fields generalizing msgKv with
  | nil => rfl
  | cons field rest ih =>
      obtain ⟨⟨⟨namedKey, -, cleanKey⟩, ⟨filled, -, cleanValue⟩⟩, others⟩ :=
        List.forall_mem_cons.mp clean
      have parts : split ':' (fieldText field) = [field.1.toList, field.2] :=
        split_pair cleanKey cleanValue namedKey filled
      simp only [List.map_cons, putTokens, parts, ih _ others, List.reverse_cons,
        List.append_assoc, List.singleton_append]

/-- A line of clean fields is read back field by field. -/
theorem putTokens_joinFields (present : fields ≠ [])
    (clean : ∀ field ∈ fields, Clean field.1.toList ∧ Clean field.2) :
    putTokens [] (split ',' (joinFields fields)) =
      .ok (fields.map fun field => (field.1.toList, field.2)).reverse := by
  have parts : split ',' (joinFields fields) = fields.map fieldText := by
    apply split_intercalate
    · intro text member
      obtain ⟨field, inside, rfl⟩ := List.mem_map.mp member
      obtain ⟨⟨-, key, -⟩, -, value, -⟩ := clean field inside
      exact not_mem_fieldText key value (by decide)
    · intro text member
      obtain ⟨field, inside, rfl⟩ := List.mem_map.mp member
      simp only [fieldText, ne_eq, List.append_eq_nil_iff, reduceCtorEq, and_false,
        not_false_eq_true]
    · exact fun empty => present (List.map_eq_nil_iff.mp empty)
  rw [parts, putTokens_fields [] clean, List.append_nil]

/-- The value of a key that stands once on the line. -/
theorem getText_of_mem {key : String} {value : List Char}
    (distinct : (fields.map Prod.fst).Nodup) (member : (key, value) ∈ fields) :
    getText (fields.map fun field => (field.1.toList, field.2)).reverse key = some value := by
  have once : ((fields.map fun field => (field.1.toList, field.2)).reverse.map
      Prod.fst).Nodup := by
    rw [List.map_reverse, List.nodup_reverse, List.map_map]
    have names : fields.map (Prod.fst ∘ fun field => (field.1.toList, field.2)) =
        (fields.map Prod.fst).map String.toList := by
      rw [List.map_map]
      rfl
    rw [names]
    exact distinct.map fun _ _ same => String.toList_injective same
  have inside : (key.toList, value) ∈
      (fields.map fun field => (field.1.toList, field.2)).reverse :=
    List.mem_reverse.mpr (List.mem_map.mpr ⟨(key, value), member, rfl⟩)
  obtain ⟨before, after, split⟩ := List.append_of_mem inside
  rw [getText, split]
  rw [split, List.map_append, List.map_cons] at once
  apply List.lookup_eq_some_iff.mpr
  refine ⟨before, after, rfl, fun other earlier => ?_⟩
  have apart := (List.nodup_append.mp once).2.2 other.1 (List.mem_map_of_mem earlier) key.toList
    List.mem_cons_self
  exact bne_iff_ne.mpr apart.symm

/-- An `int` field holds a printed number when the number fits. -/
theorem getInteger_decimal {msgKv : MsgKv} {key : String} {value : Int}
    (held : getText msgKv key = some (decimal value)) :
    getInteger msgKv key =
      if -2 ^ 31 ≤ value ∧ value ≤ 2 ^ 31 - 1 then .ok value
      else .error .numberFormatException := by
  rw [getInteger, held, Option.bind_some, parseInteger, parseWithin_decimal]
  split <;> rfl

/-- A number that was written is read back if it is a `long`. -/
theorem getLong_decimal {msgKv : MsgKv} {key : String} {value : Int}
    (held : getText msgKv key = some (decimal value)) :
    getLong msgKv key =
      if -2 ^ 63 ≤ value ∧ value ≤ 2 ^ 63 - 1 then .ok value
      else .error .numberFormatException := by
  rw [getLong, held, Option.bind_some, parseLong, parseWithin_decimal]
  split <;> rfl

end MessageService

end MegaVnc
