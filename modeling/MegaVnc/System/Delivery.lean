import MegaVnc.Repeater.Rendezvous
import MegaVnc.System.EventLine
import MegaVnc.System.RemotePcEffect

/-! # What a sequence of messages does to the PCs

A message acts on every row by itself: it changes the row of the PC whose event
it is read as, and no other. A sequence of messages therefore folds over each
row, and the status and the assignment of a PC fold over the numbers of its
events.
-/

namespace MegaVnc

open Relational Application Transition Repeater
open MessageService (Signals afterEvent statusAfter parseMessage processMessage validNumbers
  processMessage_of_signals processMessage_world)

/-- A row after a message was processed at a time of the clock. -/
def RemotePc.afterMessage (remotePc : RemotePc) (message : Date × String) : RemotePc :=
  match parseMessage message.2 with
  | .error _ => remotePc
  | .ok eventMessage =>
      if eventMessage.getRepeaterId = remotePc.repeaterId then
        afterEvent message.1 eventMessage.evNum remotePc
      else remotePc

/-- A line arrives at a time. -/
def Operation.ofMessage (message : Date × String) : Operation :=
  .processMessage message.1 message.2

section Rows

variable {world : World} {remotePc : RemotePc} {message : Date × String}
  {messages : List (Date × String)}

/-- Events of other numbers change nothing. -/
theorem afterEvent_of_not_mem {now : Date} {evNum : Int} (other : evNum ∉ validNumbers) :
    afterEvent now evNum remotePc = remotePc := by
  simp only [validNumbers, List.mem_cons, List.not_mem_nil, or_false, not_or] at other
  obtain ⟨two, three, four, five⟩ := other
  have status : statusAfter evNum remotePc = remotePc.status := by
    unfold statusAfter
    split <;> first | contradiction | rfl
  rw [afterEvent, status, if_neg fun connects => two connects.2]

/-- A line that is no event of the PC leaves it. -/
theorem afterMessage_of_not_signals
    (silent : ∀ evNum, ¬ Signals message.2 evNum remotePc.repeaterId) :
    remotePc.afterMessage message = remotePc := by
  unfold RemotePc.afterMessage
  split
  · rfl
  · next eventMessage parsed =>
      split
      · next named =>
          apply afterEvent_of_not_mem
          intro concerned
          exact silent eventMessage.evNum ⟨eventMessage, parsed, rfl, named, concerned⟩
      · rfl

/-- An event of the PC changes it. -/
theorem afterMessage_of_signals {evNum : Int}
    (signals : Signals message.2 evNum remotePc.repeaterId) :
    remotePc.afterMessage message = afterEvent message.1 evNum remotePc := by
  obtain ⟨eventMessage, parsed, rfl, named, -⟩ := signals
  simp only [RemotePc.afterMessage, parsed, if_pos named]

@[simp] theorem afterMessage_id : (remotePc.afterMessage message).id = remotePc.id := by
  unfold RemotePc.afterMessage
  split
  · rfl
  · split <;> rfl

@[simp] theorem afterMessage_repeaterId :
    (remotePc.afterMessage message).repeaterId = remotePc.repeaterId := by
  unfold RemotePc.afterMessage
  split
  · rfl
  · split <;> rfl

@[simp] theorem afterMessage_reconnectId :
    (remotePc.afterMessage message).reconnectId = remotePc.reconnectId := by
  unfold RemotePc.afterMessage
  split
  · rfl
  · split <;> rfl

/-- A message names one PC. -/
theorem Signals.repeaterId_eq {text : String} {first second : Int} {one two : Long}
    (left : Signals text first one) (right : Signals text second two) : one = two := by
  obtain ⟨eventMessage, parsed, -, rfl, -⟩ := left
  obtain ⟨again, parsedAgain, -, rfl, -⟩ := right
  cases parsed.symm.trans parsedAgain
  rfl

/-- A message acts on each row by itself. -/
theorem rows_step_ofMessage (environment : Environment) (world : World)
    (message : Date × String) :
    (step environment world (.ofMessage message)).db.remotePc.rows =
      world.db.remotePc.rows.map fun remotePc => remotePc.afterMessage message := by
  change (processMessage world message.1 message.2).2.db.remotePc.rows = _
  by_cases concerned : ∃ remotePc ∈ world.db.remotePc.rows, ∃ evNum,
      Signals message.2 evNum remotePc.repeaterId
  · obtain ⟨remotePc, present, evNum, signals⟩ := concerned
    obtain ⟨after, accessLogs, broadcasts, changed, rows, -⟩ :=
      processMessage_of_signals present signals
    rw [changed]
    change after.rows = _
    rw [rows]
    apply List.map_congr_left
    intro old member
    by_cases same : old.id = remotePc.id
    · have unique : old = remotePc := Table.eq_of_key_eq member present same
      subst unique
      rw [afterMessage_of_signals signals]
      exact if_pos rfl
    · have silent : ∀ evNum, ¬ Signals message.2 evNum old.repeaterId := by
        intro number names
        have clash := clash_remotePc.mpr (Signals.repeaterId_eq names signals)
        exact same (congrArg RemotePc.id (Table.eq_of_clash member present clash))
      rw [afterMessage_of_not_signals silent]
      exact if_neg same
  · have quiet : ∀ old ∈ world.db.remotePc.rows, old.afterMessage message = old := by
      intro old member
      apply afterMessage_of_not_signals
      intro evNum signals
      exact concerned ⟨old, member, evNum, signals⟩
    rw [List.map_congr_left quiet, List.map_id']
    rcases processMessage_world world message.1 message.2 with
      kept | ⟨evNum, remotePc, -, -, -, present, signals, -⟩
    · rw [kept]
    · exact (concerned ⟨remotePc, present, evNum, signals⟩).elim

/-- A sequence of messages folds over each row. -/
theorem rows_run_ofMessage (environment : Environment) (world : World)
    (messages : List (Date × String)) :
    (run (step environment) world (messages.map .ofMessage)).db.remotePc.rows =
      world.db.remotePc.rows.map fun remotePc => messages.foldl RemotePc.afterMessage remotePc := by
  induction messages generalizing world with
  | nil => exact (List.map_id' world.db.remotePc.rows).symm
  | cons message rest ih =>
      rw [List.map_cons, run_cons, ih, rows_step_ofMessage, List.map_map]
      rfl

/-- A PC after several lines is what the lines make of it one after another. -/
theorem mem_run_ofMessage (environment : Environment) (messages : List (Date × String))
    (present : remotePc ∈ world.db.remotePc.rows) :
    messages.foldl RemotePc.afterMessage remotePc ∈
      (run (step environment) world (messages.map .ofMessage)).db.remotePc.rows := by
  rw [rows_run_ofMessage]
  exact List.mem_map_of_mem present

/-- A column that no message writes. -/
theorem foldl_afterMessage_keeps {Column : Type} (column : RemotePc → Column)
    (kept : ∀ remotePc message, column (RemotePc.afterMessage remotePc message) = column remotePc) :
    column (messages.foldl RemotePc.afterMessage remotePc) = column remotePc := by
  induction messages generalizing remotePc with
  | nil => rfl
  | cons message rest ih => rw [List.foldl_cons, ih, kept]

theorem foldl_afterMessage_id :
    (messages.foldl RemotePc.afterMessage remotePc).id = remotePc.id :=
  foldl_afterMessage_keeps RemotePc.id fun _ _ => afterMessage_id

theorem foldl_afterMessage_repeaterId :
    (messages.foldl RemotePc.afterMessage remotePc).repeaterId = remotePc.repeaterId :=
  foldl_afterMessage_keeps RemotePc.repeaterId fun _ _ => afterMessage_repeaterId

theorem foldl_afterMessage_reconnectId :
    (messages.foldl RemotePc.afterMessage remotePc).reconnectId = remotePc.reconnectId :=
  foldl_afterMessage_keeps RemotePc.reconnectId fun _ _ => afterMessage_reconnectId

/-- Messages leave it to the same PC to hold a reconnectId. -/
theorem findByReconnectId_run_ofMessage {reconnectId : String} (environment : Environment)
    (messages : List (Date × String))
    (found : world.db.findByReconnectId reconnectId = .ok (some remotePc)) :
    (run (step environment) world (messages.map .ofMessage)).db.findByReconnectId reconnectId =
      .ok (some (messages.foldl RemotePc.afterMessage remotePc)) := by
  have holders := Database.findByReconnectId_eq_ok_some_iff.mp found
  have kept : ((run (step environment) world (messages.map .ofMessage)).db.remotePc.rows.filter
      fun row => row.reconnectId = some reconnectId) =
      [messages.foldl RemotePc.afterMessage remotePc] := by
    rw [rows_run_ofMessage, List.filter_map]
    have same : ((fun row : RemotePc => decide (row.reconnectId = some reconnectId)) ∘
        fun row => messages.foldl RemotePc.afterMessage row) =
        fun row => decide (row.reconnectId = some reconnectId) := by
      funext row
      rw [Function.comp_apply, foldl_afterMessage_reconnectId]
    rw [same, holders, List.map_singleton]
  exact Database.findByReconnectId_eq_ok_some_iff.mpr kept

end Rows

/-! ### What the events of a PC show -/

/-- The part of a row that the events change. -/
structure Shown where
  status : Status
  assigned : Bool
deriving DecidableEq, Repr

/-- What a PC shows of its state. -/
def RemotePc.shown (remotePc : RemotePc) : Shown where
  status := remotePc.status
  assigned := remotePc.assignedAt.isSome

namespace Shown

/-- What an event does to it. -/
def after (shown : Shown) : Int → Shown
  | 2 => { status := .standby, assigned := true }
  | 3 => { shown with status := .offline }
  | 4 => { shown with status := .active }
  | 5 => { shown with status := if shown.assigned then .standby else .offline }
  | _ => shown

/-- Other events do nothing. -/
theorem after_of_not_mem {shown : Shown} {evNum : Int} (other : evNum ∉ validNumbers) :
    shown.after evNum = shown := by
  simp only [validNumbers, List.mem_cons, List.not_mem_nil, or_false, not_or] at other
  obtain ⟨two, three, four, five⟩ := other
  unfold after
  split <;> first | contradiction | rfl

end Shown

/-- The event of the code does what the table of events says. -/
theorem shown_afterEvent {now : Date} {evNum : Int} {remotePc : RemotePc} :
    (afterEvent now evNum remotePc).shown = remotePc.shown.after evNum := by
  by_cases concerned : evNum ∈ validNumbers
  · simp only [validNumbers, List.mem_cons, List.not_mem_nil, or_false] at concerned
    rcases concerned with rfl | rfl | rfl | rfl <;>
      cases assignment : remotePc.assignedAt <;>
        simp [afterEvent, statusAfter, RemotePc.shown, Shown.after, assignment]
  · rw [afterEvent_of_not_mem concerned, Shown.after_of_not_mem concerned]

/-! ### Lines of the repeater -/

/-- An event of the repeater, and the time when its line is processed. -/
structure Delivery where
  now : Date
  event : RepeaterEvent
deriving DecidableEq

/-- The line of a delivered event, with the time of its arrival. -/
def Delivery.message (delivery : Delivery) : Date × String :=
  (delivery.now, delivery.event.line)

/-- Its handling by the application. -/
def Delivery.operation (delivery : Delivery) : Operation :=
  .ofMessage delivery.message

theorem map_operation (deliveries : List Delivery) :
    deliveries.map Delivery.operation = (deliveries.map Delivery.message).map .ofMessage := by
  rw [List.map_map]
  rfl

theorem decoded_evNum (event : RepeaterEvent) : (decoded event).evNum = event.eventNum := by
  obtain ⟨timeStamp, repeaterProcessId, extraInfo⟩ := event
  cases extraInfo <;> rfl

theorem decoded_getRepeaterId (event : RepeaterEvent) :
    (decoded event).getRepeaterId = event.code.toInt := by
  obtain ⟨timeStamp, repeaterProcessId, extraInfo⟩ := event
  cases extraInfo <;> rfl

variable {remotePc : RemotePc}

/-- An event whose time fits changes the PC of its code. -/
theorem afterMessage_delivery {delivery : Delivery} (fits : TimeFits delivery.event) :
    remotePc.afterMessage delivery.message =
      if delivery.event.code.toInt = remotePc.repeaterId then
        afterEvent delivery.now delivery.event.eventNum remotePc
      else remotePc := by
  have parsed : parseMessage delivery.message.2 = .ok (decoded delivery.event) := by
    rw [Delivery.message, parseMessage_line, if_pos fits]
  simp only [RemotePc.afterMessage, parsed, decoded_evNum, decoded_getRepeaterId]
  rfl

/-- What a delivered event makes of a row. -/
def RemotePc.afterDelivery (remotePc : RemotePc) (delivery : Delivery) : RemotePc :=
  if delivery.event.code.toInt = remotePc.repeaterId then
    afterEvent delivery.now delivery.event.eventNum remotePc
  else remotePc

/-- The lines of the events fold over a row as the events do. -/
theorem foldl_deliveries {deliveries : List Delivery}
    (fits : ∀ delivery ∈ deliveries, TimeFits delivery.event) :
    (deliveries.map Delivery.message).foldl RemotePc.afterMessage remotePc =
      deliveries.foldl RemotePc.afterDelivery remotePc := by
  induction deliveries generalizing remotePc with
  | nil => rfl
  | cons delivery rest ih =>
      obtain ⟨headFits, restFit⟩ := List.forall_mem_cons.mp fits
      rw [List.map_cons, List.foldl_cons, List.foldl_cons, ih restFit,
        afterMessage_delivery headFits]
      rfl

/-- The events of a PC's code decide what its row shows. -/
theorem shown_foldl_deliveries {deliveries : List Delivery} {code : Int64}
    (coded : remotePc.repeaterId = code.toInt)
    (fits : ∀ delivery ∈ deliveries, TimeFits delivery.event) :
    ((deliveries.map Delivery.message).foldl RemotePc.afterMessage remotePc).shown =
      (numbersOf code (deliveries.map Delivery.event)).foldl Shown.after remotePc.shown := by
  induction deliveries generalizing remotePc with
  | nil => rfl
  | cons delivery rest ih =>
      obtain ⟨headFits, restFit⟩ := List.forall_mem_cons.mp fits
      rw [List.map_cons, List.foldl_cons, ih (by rw [afterMessage_repeaterId, coded]) restFit,
        afterMessage_delivery headFits, coded, List.map_cons, numbersOf_cons]
      by_cases own : delivery.event.code = code
      · rw [if_pos (congrArg Int64.toInt own), if_pos own, shown_afterEvent, List.foldl_cons]
      · rw [if_neg fun same => own (Int64.toInt_inj.mp same), if_neg own]

/-- A server and a viewer meet under the code 100, until the server goes. -/
def sessionInputs : List (Int64 × Input) :=
  [(1704067200, .acceptConnection .server "ID:100".toList ⟨192, 168, 0, 10⟩ (-1)),
    (1704067260, .acceptConnection .viewer "ID:100".toList ⟨10, 0, 0, 255⟩ 5000),
    (1704070860, .cleanUpAfterRepeaterProcExit 2 5000)]

/-- The tables after a whole session. -/
def sessionState : State :=
  run (Repeater.step .shipped) (start .shipped) sessionInputs

/-- An event that is processed in the second in which it was sent. -/
def Delivery.prompt (event : RepeaterEvent) : Delivery where
  now := event.timeStamp.toInt * 1000
  event := event

theorem sessionInputs_legal : ∀ input ∈ sessionInputs, input.2.Legal := by
  decide +kernel

end MegaVnc
