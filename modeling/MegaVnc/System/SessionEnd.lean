import MegaVnc.System.Delivery
import MegaVnc.System.Holder

/-! # A release among the events of an ending connection

The application releases a PC and the repeater reports the end of its connection
independently of each other. The release leaves the status, the end of a session
decides by the assignment, and a server that connects assigns the PC again.
-/

namespace MegaVnc

open Relational Application Repeater Transition
open MessageService (parseMessage afterEvent)

/-- A message that is read as an event of the PC with the id. -/
structure EventOf (repeaterId : Long) where
  message : Date × String
  evNum : Int
  read : ∃ eventMessage, parseMessage message.2 = .ok eventMessage ∧
    eventMessage.evNum = evNum ∧ eventMessage.getRepeaterId = repeaterId

namespace EventOf

/-- A line of the repeater whose time the application can read. -/
def ofDelivery (delivery : Delivery) (fits : TimeFits delivery.event) :
    EventOf delivery.event.code.toInt where
  message := delivery.message
  evNum := delivery.event.eventNum
  read := by
    refine ⟨decoded delivery.event, ?_, decoded_evNum delivery.event,
      decoded_getRepeaterId delivery.event⟩
    rw [Delivery.message, parseMessage_line, if_pos fits]

variable {repeaterId : Long}

/-- An event of the PC arrives. -/
def operation (event : EventOf repeaterId) : Operation :=
  .ofMessage event.message

theorem map_operation (events : List (EventOf repeaterId)) :
    events.map operation = (events.map message).map .ofMessage := by
  rw [List.map_map]
  rfl

/-- An event of a PC changes it as its number says. -/
theorem afterMessage (event : EventOf repeaterId) {remotePc : RemotePc}
    (own : remotePc.repeaterId = repeaterId) :
    remotePc.afterMessage event.message = afterEvent event.message.1 event.evNum remotePc := by
  obtain ⟨eventMessage, parsed, number, named⟩ := event.read
  simp only [RemotePc.afterMessage, parsed, number, named.trans own.symm, ↓reduceIte]

/-- Several events change what the PC shows, one after another. -/
theorem shown_foldl (events : List (EventOf repeaterId)) {remotePc : RemotePc}
    (own : remotePc.repeaterId = repeaterId) :
    ((events.map message).foldl RemotePc.afterMessage remotePc).shown =
      (events.map evNum).foldl Shown.after remotePc.shown := by
  induction events generalizing remotePc with
  | nil => rfl
  | cons event rest ih =>
      have still : (remotePc.afterMessage event.message).repeaterId = repeaterId := by
        rw [afterMessage_repeaterId, own]
      rw [List.map_cons, List.foldl_cons, ih still, event.afterMessage own, shown_afterEvent,
        List.map_cons, List.foldl_cons]

end EventOf

/-! ### What a sequence of events shows at its end -/

/-- A PC is assigned once its server has connected. -/
theorem Shown.assigned_after {shown : Shown} {evNum : Int} :
    (shown.after evNum).assigned = true ↔ shown.assigned = true ∨ evNum = 2 := by
  by_cases connects : evNum = 2
  · subst connects
    exact ⟨fun _ => Or.inr rfl, fun _ => rfl⟩
  · unfold Shown.after
    split <;> simp_all

/-- A PC is assigned after events if it was before or its server has connected. -/
theorem Shown.assigned_foldl (numbers : List Int) (shown : Shown) :
    (numbers.foldl Shown.after shown).assigned = true ↔ shown.assigned = true ∨ 2 ∈ numbers := by
  induction numbers generalizing shown with
  | nil => simp only [List.foldl_nil, List.not_mem_nil, or_false]
  | cons evNum rest ih =>
      rw [List.foldl_cons, ih, Shown.assigned_after, List.mem_cons, or_assoc,
        eq_comm (a := evNum) (b := 2)]

/-- The last event decides the status; at the end of a session it is the
assignment. -/
theorem Shown.status_foldl {numbers : List Int} {last : Int} (shown : Shown)
    (ends : numbers.getLast? = some last) (ending : last = 3 ∨ last = 5) :
    (numbers.foldl Shown.after shown).status = .offline ↔
      last = 3 ∨ shown.assigned = false ∧ 2 ∉ numbers := by
  obtain ⟨before, rfl⟩ := List.getLast?_eq_some_iff.mp ends
  rw [List.foldl_append, List.foldl_cons, List.foldl_nil]
  rcases ending with rfl | rfl
  · exact ⟨fun _ => Or.inl rfl, fun _ => rfl⟩
  · have assigned := Shown.assigned_foldl before shown
    have concat : 2 ∈ before ++ [(5 : Int)] ↔ 2 ∈ before := by simp
    rw [concat]
    cases still : (before.foldl Shown.after shown).assigned with
    | true =>
        rw [still] at assigned
        rcases assigned.mp rfl with held | connected
        · simp [Shown.after, still, held]
        · simp [Shown.after, still, connected]
    | false =>
        rw [still, eq_comm] at assigned
        simp only [Bool.true_eq_false, false_iff, not_or, Bool.not_eq_true] at assigned
        simp [Shown.after, still, assigned]

variable {environment : Environment} {world : World} {remotePc : RemotePc} {reconnectId : String}

/-- The PC is found and released by its reconnectId after any events, and the
events that follow fold over the released row. -/
theorem mem_run_release (environment : Environment)
    (found : world.db.findByReconnectId reconnectId = .ok (some remotePc))
    (before after : List (Date × String)) :
    after.foldl RemotePc.afterMessage (before.foldl RemotePc.afterMessage remotePc).disAssign ∈
      (run (step environment) world (before.map .ofMessage ++
        .disAssignRemotePc reconnectId :: after.map .ofMessage)).db.remotePc.rows := by
  have holds := findByReconnectId_run_ofMessage environment before found
  obtain ⟨released, performed, rows⟩ := @perform_disAssign environment _ _ _ holds
  rw [run_append, run_cons]
  apply mem_run_ofMessage
  rw [Application.step, performed]
  change _ ∈ released.rows
  rw [rows]
  have present := (Database.findByReconnectId_eq_ok_some holds).1
  exact Table.mem_replace.mpr (Or.inr ⟨rfl, _, present, rfl⟩)

/-- Wherever the release falls among the events, the PC ends offline, unassigned
and unnamed exactly when no server connects after the release, and the release
does not come after the end of a session. -/
theorem released_iff (found : world.db.findByReconnectId reconnectId = .ok (some remotePc))
    (assigned : remotePc.assignedAt ≠ none) (before after : List (EventOf remotePc.repeaterId))
    {last : EventOf remotePc.repeaterId} (ends : (before ++ after).getLast? = some last)
    (ending : last.evNum = 3 ∨ last.evNum = 5) :
    ∃ final ∈ (run (step environment) world (before.map EventOf.operation ++
        .disAssignRemotePc reconnectId :: after.map EventOf.operation)).db.remotePc.rows,
      final.id = remotePc.id ∧
      ((final.status = .offline ∧ final.assignedAt = none ∧ final.reconnectId = some "") ↔
        (∀ event ∈ after, event.evNum ≠ 2) ∧ (after ≠ [] ∨ last.evNum = 3)) := by
  let middle := (before.map EventOf.message).foldl RemotePc.afterMessage remotePc
  let final := (after.map EventOf.message).foldl RemotePc.afterMessage middle.disAssign
  have own : middle.disAssign.repeaterId = remotePc.repeaterId := foldl_afterMessage_repeaterId
  have shown : final.shown =
      (after.map EventOf.evNum).foldl Shown.after { status := middle.status, assigned := false } :=
    EventOf.shown_foldl after own
  have connects : final.shown.assigned = true ↔ 2 ∈ after.map EventOf.evNum := by
    rw [shown, Shown.assigned_foldl]
    exact or_iff_right Bool.false_ne_true
  have unassigned : final.assignedAt = none ↔ 2 ∉ after.map EventOf.evNum := by
    rw [← connects, RemotePc.shown, Option.isSome_iff_ne_none, not_not]
  have quiet_iff : (∀ event ∈ after, event.evNum ≠ 2) ↔ 2 ∉ after.map EventOf.evNum := by
    simp only [List.mem_map, not_exists, not_and, ne_eq]
  refine ⟨final, ?_, ?_, ?_⟩
  · rw [EventOf.map_operation, EventOf.map_operation]
    exact mem_run_release environment found _ _
  · calc
      final.id = middle.disAssign.id := foldl_afterMessage_id
      _ = remotePc.id := foldl_afterMessage_id
  · have unnamed : final.reconnectId = some "" := foldl_afterMessage_reconnectId
    rw [unassigned, and_iff_left unnamed, quiet_iff, and_comm]
    apply and_congr_right
    intro quiet
    change final.shown.status = .offline ↔ _
    rcases List.eq_nil_or_concat' after with rfl | ⟨rest, event, rfl⟩
    · -- The release comes last: the status is that of the last event.
      rw [List.append_nil] at ends
      have reported := Shown.status_foldl remotePc.shown
        (show (before.map EventOf.evNum).getLast? = some last.evNum by
          rw [List.getLast?_map, ends, Option.map_some]) ending
      have held : remotePc.shown.assigned = true := Option.isSome_iff_ne_none.mpr assigned
      rw [← EventOf.shown_foldl before rfl, held] at reported
      have kept : final.shown.status = middle.status := rfl
      rw [kept]
      exact reported.trans (by simp)
    · -- The last event comes after the release and meets an unassigned PC.
      have lastAfter : ((rest ++ [event]).map EventOf.evNum).getLast? = some last.evNum := by
        rw [← List.append_assoc, List.getLast?_concat] at ends
        rw [List.map_append, List.map_singleton, List.getLast?_concat, Option.some.inj ends]
      rw [shown, Shown.status_foldl _ lastAfter ending]
      constructor
      · intro _
        exact Or.inl (List.append_ne_nil_of_right_ne_nil rest (List.cons_ne_nil event []))
      · intro _
        exact Or.inr ⟨rfl, quiet⟩

theorem namedBasePc_found :
    namedBase.db.findByReconnectId "app-1" = .ok (some namedBasePc) := by
  decide +kernel

/-- The server of the base PC is removed after an hour. -/
def serverRemoved : Delivery :=
  .prompt (connectionEvent .shipped 1704070860 .serverDisconnect 0 100 connMode2 ⟨192, 168, 0, 10⟩)

theorem namedBasePc_released_iff :
    ∃ final ∈ (run (step .dev) namedBase
        [.disAssignRemotePc "app-1", serverRemoved.operation]).db.remotePc.rows,
      final.id = 1 ∧
      ((final.status = .offline ∧ final.assignedAt = none ∧ final.reconnectId = some "") ↔
        (∀ event ∈ [EventOf.ofDelivery serverRemoved (by decide)], event.evNum ≠ 2) ∧
          ([EventOf.ofDelivery serverRemoved (by decide)] ≠ [] ∨
            (EventOf.ofDelivery serverRemoved (by decide)).evNum = 3)) :=
  released_iff namedBasePc_found (by decide) [] [EventOf.ofDelivery serverRemoved (by decide)] rfl
    (Or.inl rfl)

/-- The events of the session that follow the connection of the server. -/
def lateDeliveries : List Delivery :=
  (sessionState.sent.drop 1).map .prompt

theorem lateDeliveries_fit : ∀ delivery ∈ lateDeliveries,
    delivery.event.code = 100 ∧ TimeFits delivery.event := by
  decide +kernel

/-- The release after them leaves the PC unassigned. -/
theorem lateDeliveries_release : connectedBasePc.disAssign ∈ (run (step .dev) namedBase
    (lateDeliveries.map Delivery.operation ++ .disAssignRemotePc "app-1" ::
      ([] : List Delivery).map Delivery.operation)).db.remotePc.rows := by
  have ends : (lateDeliveries.foldl RemotePc.afterDelivery namedBasePc).disAssign =
      connectedBasePc.disAssign := by
    decide +kernel
  have released := mem_run_release .dev namedBasePc_found (lateDeliveries.map Delivery.message) []
  rw [foldl_deliveries fun delivery member => (lateDeliveries_fit delivery member).2,
    List.foldl_nil, ends, List.map_nil] at released
  rwa [map_operation, List.map_nil]

/-- The client releases the base PC after the repeater reported the end of its
session: the PC stays standby. -/
theorem release_after_session_end :
    ¬ ∀ (environment : Environment) (world : World) (remotePc final : RemotePc)
        (reconnectId : String) (config : Config) (earlier later : List (Int64 × Input))
        (code : Int64) (before after : List Delivery), Reachable environment world →
      world.db.findByReconnectId reconnectId = .ok (some remotePc) →
      remotePc.assignedAt ≠ none → remotePc.repeaterId = code.toInt →
      (∀ input ∈ earlier ++ later, input.2.Legal) →
      (run (Repeater.step config) (start config) (earlier ++ later)).sent =
        (run (Repeater.step config) (start config) earlier).sent ++
          (before ++ after).map Delivery.event →
      (∀ delivery ∈ before ++ after, delivery.event.code = code ∧ TimeFits delivery.event) →
      (∃ last, (before ++ after).getLast? = some last ∧
        (last.event.eventNum = 3 ∨ last.event.eventNum = 5)) →
      final ∈ (run (Application.step environment) world (before.map Delivery.operation ++
        .disAssignRemotePc reconnectId :: after.map Delivery.operation)).db.remotePc.rows →
      final.id = remotePc.id →
      final.status = .offline ∧ final.assignedAt = none ∧ final.reconnectId = some "" := by
  intro commutes
  have ended := commutes .dev namedBase namedBasePc connectedBasePc.disAssign "app-1" .shipped
    (sessionInputs.take 1) (sessionInputs.drop 1) 100 lateDeliveries []
    ⟨nameAndConnect, rfl⟩ namedBasePc_found (by decide) rfl
    (by rw [List.take_append_drop]; exact sessionInputs_legal)
    (by decide +kernel) (by rw [List.append_nil]; exact lateDeliveries_fit) ⟨_, rfl, Or.inr rfl⟩
    lateDeliveries_release rfl
  cases ended.1

end MegaVnc
