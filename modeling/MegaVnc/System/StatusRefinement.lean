import MegaVnc.System.Assignment
import MegaVnc.System.Delivery

/-! # The status of a PC and the repeater's tables

As long as no call of a client intervenes, the status of a PC says what the
repeater's tables hold for its code, with one exception: when a session has
ended, the entries are gone and the PC, still assigned, is standby.
-/

namespace MegaVnc

open Relational Application Repeater Transition
open MessageService (validNumbers)

/-- The last event that concerns the application is the end of a session. -/
def sessionEndedLast (numbers : List Int) : Bool :=
  (numbers.filter fun evNum => evNum ∈ validNumbers).getLast? = some 5

/-- Whether the last event ended a session is told by the last one that counts. -/
theorem sessionEndedLast_snoc (numbers : List Int) (evNum : Int) :
    sessionEndedLast (numbers ++ [evNum]) =
      if evNum ∈ validNumbers then decide (evNum = 5) else sessionEndedLast numbers := by
  unfold sessionEndedLast
  by_cases concerned : evNum ∈ validNumbers
  · rw [if_pos concerned, List.filter_append, List.filter_cons_of_pos (by simp [concerned]),
      List.filter_nil, List.getLast?_concat]
    simp only [Option.some.injEq]
  · rw [if_neg concerned, List.filter_append, List.filter_cons_of_neg (by simp [concerned]),
      List.filter_nil, List.append_nil]

/-- The status in a phase that events with these numbers lead to. -/
def statusIn (numbers : List Int) : Phase → Status
  | .session => .active
  | .serverWaits => .standby
  | .idle | .viewerWaits => if sessionEndedLast numbers then .standby else .offline

/-- A registered PC that the repeater has not reported yet. -/
def freshlyShown : Shown where
  status := .offline
  assigned := false

/-- The events that lead to a phase give the PC the status of that phase; while
the repeater holds a server, the PC is assigned. -/
theorem shown_of_reached {numbers : List Int} {phase : Phase}
    (reached : Phase.Reached numbers phase) :
    (numbers.foldl Shown.after freshlyShown).status = statusIn numbers phase ∧
      (phase.server ≠ none → (numbers.foldl Shown.after freshlyShown).assigned = true) := by
  induction reached with
  | start => exact ⟨rfl, fun server => (server rfl).elim⟩
  | @step numbers more phase next reached taken ih =>
      obtain ⟨status, assigned⟩ := ih
      rw [List.foldl_append]
      cases taken with
      | viewerFirst =>
          refine ⟨?_, fun server => (server rfl).elim⟩
          simp only [statusIn, sessionEndedLast_snoc]
          exact status
      | serverFirst =>
          exact ⟨rfl, fun _ => rfl⟩
      | viewerJoins => exact ⟨rfl, fun _ => assigned (Option.some_ne_none false)⟩
      | serverJoins => exact ⟨rfl, fun _ => rfl⟩
      | viewerRemoved =>
          refine ⟨?_, fun server => (server rfl).elim⟩
          simp only [statusIn, sessionEndedLast_snoc]
          exact status
      | serverRemoved =>
          refine ⟨?_, fun server => (server rfl).elim⟩
          simp only [statusIn, sessionEndedLast_snoc]
          rfl
      | ended =>
          refine ⟨?_, fun server => (server rfl).elim⟩
          have still := assigned (Option.some_ne_none true)
          simp only [statusIn, sessionEndedLast_snoc, List.foldl_cons, List.foldl_nil, Shown.after,
            still]
          rfl

/-- A PC that was registered and not touched since. -/
structure RemotePc.Fresh (remotePc : RemotePc) : Prop where
  status : remotePc.status = .offline
  assignedAt : remotePc.assignedAt = none
  reconnectId : remotePc.reconnectId = some ""

variable {environment : Environment} {world : World} {remotePc : RemotePc} {config : Config}
  {inputs : List (Int64 × Input)} {deliveries : List Delivery} {code : Int64}

/-- After all events of a run of the repeater have been processed, the PC is
active exactly when its code has an active server, standby when it has an
inactive one, and without a server it is standby exactly when a session ended
last. -/
theorem status_refines (legal : ∀ input ∈ inputs, input.2.Legal) (named : code ≠ 0)
    (registered : remotePc ∈ world.db.remotePc.rows) (coded : remotePc.repeaterId = code.toInt)
    (fresh : remotePc.Fresh)
    (delivered : deliveries.map Delivery.event =
      (run (Repeater.step config) (start config) inputs).sent)
    (fits : ∀ delivery ∈ deliveries, TimeFits delivery.event) :
    ∃ final ∈ (run (Application.step environment) world
        (deliveries.map Delivery.operation)).db.remotePc.rows,
      final.id = remotePc.id ∧
      (final.status = .active ↔ entry code
        (run (Repeater.step config) (start config) inputs).lists.servers = some true) ∧
      (final.status = .standby ↔
        entry code (run (Repeater.step config) (start config) inputs).lists.servers = some false ∨
        entry code (run (Repeater.step config) (start config) inputs).lists.servers = none ∧
          sessionEndedLast (numbersOf code (deliveries.map Delivery.event)) = true) ∧
      (final.status = .offline ↔
        entry code (run (Repeater.step config) (start config) inputs).lists.servers = none ∧
          sessionEndedLast (numbersOf code (deliveries.map Delivery.event)) = false) := by
  obtain ⟨phase, held, reached⟩ := exists_phase config legal named
  rw [← delivered] at reached
  let messages := deliveries.map Delivery.message
  have shown : (messages.foldl RemotePc.afterMessage remotePc).shown =
      (numbersOf code (deliveries.map Delivery.event)).foldl Shown.after freshlyShown := by
    rw [shown_foldl_deliveries coded fits, RemotePc.shown, fresh.status, fresh.assignedAt]
    rfl
  have status : (messages.foldl RemotePc.afterMessage remotePc).status =
      statusIn (numbersOf code (deliveries.map Delivery.event)) phase :=
    (congrArg Shown.status shown).trans (shown_of_reached reached).1
  refine ⟨messages.foldl RemotePc.afterMessage remotePc, ?_, foldl_afterMessage_id, ?_⟩
  · rw [map_operation]
    exact mem_run_ofMessage environment messages registered
  · rw [held.server, status]
    cases phase with
    | session => simp [statusIn, Phase.server]
    | serverWaits => simp [statusIn, Phase.server]
    | idle =>
        cases last : sessionEndedLast (numbersOf code (deliveries.map Delivery.event)) <;>
          simp [statusIn, Phase.server, last]
    | viewerWaits =>
        cases last : sessionEndedLast (numbersOf code (deliveries.map Delivery.event)) <;>
          simp [statusIn, Phase.server, last]

/-- The events of the session, each delivered at once. -/
def sessionDeliveries : List Delivery :=
  sessionState.sent.map .prompt

theorem freshBasePc_mem : freshBasePc ∈ (initial .dev).db.remotePc.rows := by
  decide +kernel

theorem sessionDeliveries_fit : ∀ delivery ∈ sessionDeliveries, TimeFits delivery.event := by
  decide +kernel

theorem sessionDeliveries_events : sessionDeliveries.map Delivery.event = sessionState.sent := by
  rw [sessionDeliveries, List.map_map]
  exact List.map_id sessionState.sent

theorem basePc_status_refines :
    ∃ final ∈ (run (Application.step .dev) (initial .dev)
        (sessionDeliveries.map Delivery.operation)).db.remotePc.rows,
      final.id = 1 ∧
      (final.status = .active ↔ entry 100 sessionState.lists.servers = some true) ∧
      (final.status = .standby ↔ entry 100 sessionState.lists.servers = some false ∨
        entry 100 sessionState.lists.servers = none ∧
          sessionEndedLast (numbersOf 100 (sessionDeliveries.map Delivery.event)) = true) ∧
      (final.status = .offline ↔ entry 100 sessionState.lists.servers = none ∧
          sessionEndedLast (numbersOf 100 (sessionDeliveries.map Delivery.event)) = false) :=
  status_refines sessionInputs_legal (by decide) freshBasePc_mem rfl ⟨rfl, rfl, rfl⟩
    sessionDeliveries_events sessionDeliveries_fit

/-- The session of the base PC has ended: the repeater holds no server for it,
and its status is standby. -/
theorem standby_without_server :
    ¬ ∀ (environment : Environment) (world : World) (config : Config)
        (inputs : List (Int64 × Input)) (code : Int64) (remotePc final : RemotePc)
        (deliveries : List Delivery), Reachable environment world →
      (∀ input ∈ inputs, input.2.Legal) → code ≠ 0 →
      remotePc ∈ world.db.remotePc.rows → remotePc.repeaterId = code.toInt → remotePc.Fresh →
      deliveries.map Delivery.event = (run (Repeater.step config) (start config) inputs).sent →
      (∀ delivery ∈ deliveries, TimeFits delivery.event) →
      final ∈ (run (Application.step environment) world
        (deliveries.map Delivery.operation)).db.remotePc.rows → final.id = remotePc.id →
      (final.status = .offline ↔ entry code
        (run (Repeater.step config) (start config) inputs).lists.servers = none) ∧
      (final.status = .standby ↔ entry code
        (run (Repeater.step config) (start config) inputs).lists.servers = some false) ∧
      (final.status = .active ↔ entry code
        (run (Repeater.step config) (start config) inputs).lists.servers = some true) := by
  intro refines
  have reported : connectedBasePc ∈ (run (Application.step .dev) (initial .dev)
      (sessionDeliveries.map Delivery.operation)).db.remotePc.rows := by
    have ends : sessionDeliveries.foldl RemotePc.afterDelivery freshBasePc = connectedBasePc := by
      decide +kernel
    rw [map_operation, ← ends, ← foldl_deliveries sessionDeliveries_fit]
    exact mem_run_ofMessage .dev _ freshBasePc_mem
  have shown := (refines .dev (initial .dev) .shipped sessionInputs 100 freshBasePc
    connectedBasePc sessionDeliveries (Transition.Reachable.refl _) sessionInputs_legal
    (by decide) freshBasePc_mem rfl ⟨rfl, rfl, rfl⟩ sessionDeliveries_events
    sessionDeliveries_fit reported rfl).1
  have gone : entry 100 (run (Repeater.step .shipped) (start .shipped)
      sessionInputs).lists.servers = none := by
    decide +kernel
  cases shown.mpr gone

end MegaVnc
