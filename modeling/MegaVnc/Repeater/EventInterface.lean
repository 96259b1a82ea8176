import MegaVnc.Foundation.Fifo
import MegaVnc.Foundation.Run
import MegaVnc.Repeater.Repeater

/-! # The event interface

The repeater puts its events into a ring of 500 cells. `handleRepeaterEvents`
hands the ring to a child process, which connects to the listener and writes one
message for each event, and empties the repeater's own copy. The child runs beside
the repeater: what it does is a step of its own.
-/

namespace Repeater

open Text Transition

/-- The size of the ring. -/
def maxFifoEvents : Nat := 500

/-- How often a read or write may have to wait before it is given up. -/
def timeout5Secs : Nat := 5

/-! ### Messages -/

/-- One column of `formatStrings`. -/
structure Formats where
  connection : String
  session : String
  startEnd : String

/-- The formats of messages that are lines of their own. -/
def plainFormats : Formats where
  connection := connectionFormat
  session := sessionFormat
  startEnd := startEndFormat

/-- The formats of messages that are requests of HTTP. -/
def httpFormats : Formats where
  connection := "GET /? EvMsgVer=%d&EvNum=%d&Time=%ld&Pid=%d&TblInd=%d&Code=%ld&Mode=%d" ++
    "&Ip=%d.%d.%d.%d HTTP/1.0\n"
  session := "GET /? EvMsgVer=%d&EvNum=%d&Time=%ld&Pid=%d&SvrTblInd=%d&VwrTblInd=%d&Code=%ld" ++
    "&Mode=%d&SvrIp=%d.%d.%d.%d&VwrIp=%d.%d.%d.%d HTTP/1.0\n"
  startEnd := "GET /? EvMsgVer=%d&EvNum=%d&Time=%ld&Pid=%d&MaxSessions=%d HTTP/1.0\n"

/-- The message of an event, cut to the size of its buffer. -/
def Formats.message (formats : Formats) (event : RepeaterEvent) : List Char :=
  match event.extraInfo with
  | .connection _ connEv =>
      snprintf maxEventMsgLen formats.connection.toList
        (event.header ++ [connEv.tableIndex.toInt, connEv.code.toInt, connEv.connMode.toInt] ++
          connEv.peerIp.toInts)
  | .session _ sessEv =>
      snprintf maxEventMsgLen formats.session.toList
        (event.header ++ [sessEv.serverTableIndex.toInt, sessEv.viewerTableIndex.toInt,
          sessEv.code.toInt, sessEv.connMode.toInt] ++ sessEv.serverIp.toInts ++
          sessEv.viewerIp.toInts)
  | .startEnd _ seEv =>
      snprintf maxEventMsgLen formats.startEnd.toList (event.header ++ [seEv.maxSessions.toInt])

/-- The message of an event, plain or as an HTTP request. -/
def eventMessageToListener (useHttpForEventListener : Bool) (event : RepeaterEvent) :
    List Char :=
  (if useHttpForEventListener then httpFormats else plainFormats).message event

theorem eventMessageToListener_false (event : RepeaterEvent) :
    eventMessageToListener false event = doEventWork event := rfl

/-! ### The state -/

/-- What `memset` leaves in the ring. -/
def RepeaterEvent.zero : RepeaterEvent where
  timeStamp := 0
  repeaterProcessId := 0
  extraInfo := .connection .viewerConnect ⟨0, 0, 0, ⟨0, 0, 0, 0⟩⟩

/-- The process that runs `doEventWork`, with its own copy of the ring. -/
inductive EventProc where
  | idle
  | connecting (eventFifo : Fifo RepeaterEvent maxFifoEvents)
  | posting (eventFifo : Fifo RepeaterEvent maxFifoEvents)
  | exited

/-- The state of the interface: the ring, the pid of the child, the child itself,
and what was written to each connection of the listener, the last one first.
`offered` and `posted` are the events given to the interface and the events whose
messages the children have written to their ends. -/
structure EventInterface where
  useHttpForEventListener : Bool
  eventFifo : Fifo RepeaterEvent maxFifoEvents
  eventProc : Int32
  child : EventProc
  connections : List (List Char)
  offered : List RepeaterEvent
  posted : List RepeaterEvent

/-- The interface starts with an empty ring and without a child. -/
def initRepeaterEventInterface (useHttpForEventListener : Bool) : EventInterface where
  useHttpForEventListener := useHttpForEventListener
  eventFifo :=
    { cells := fun _ => .zero
      head := 0
      tail := 0
      count := 0
      tail_lt := by decide
      count_le := by decide
      head_eq := by decide }
  eventProc := 0
  child := .idle
  connections := []
  offered := []
  posted := []

/-! ### The repeater's side -/

/-- There is no room for another event. -/
def isFifoFull (eventFifo : Fifo RepeaterEvent maxFifoEvents) : Bool :=
  eventFifo.count = maxFifoEvents

/-- No event waits. -/
def isFifoEmpty (eventFifo : Fifo RepeaterEvent maxFifoEvents) : Bool :=
  eventFifo.count = 0

/-- An event gets the time at which it is put into the ring. -/
def RepeaterEvent.stamp (event : RepeaterEvent) (now : Int64) : RepeaterEvent :=
  { event with timeStamp := now }

/-- Put an event into the ring; a full ring refuses it. -/
def putEvent (eventFifo : Fifo RepeaterEvent maxFifoEvents) (event : RepeaterEvent) :
    Fifo RepeaterEvent maxFifoEvents :=
  if room : eventFifo.count < maxFifoEvents then eventFifo.push event room else eventFifo

/-- An event is put into the ring, unless the ring is full. -/
def sendRepeaterEvent (interface : EventInterface) (now : Int64) (event : RepeaterEvent) :
    EventInterface :=
  let interface := { interface with offered := interface.offered ++ [event.stamp now] }
  if ¬ isFifoFull interface.eventFifo then
    { interface with eventFifo := putEvent interface.eventFifo (event.stamp now) }
  else interface

/-- `pid` is what `fork` returns, and `waitpid` finds a child that has exited. -/
def handleRepeaterEvents (interface : EventInterface) (pid : Int32) : EventInterface :=
  if interface.eventProc = 0 then
    if ¬ isFifoEmpty interface.eventFifo then
      if pid = -1 then interface
      else
        { interface with
          eventProc := pid
          child := .connecting interface.eventFifo
          eventFifo := interface.eventFifo.clear }
    else interface
  else
    match interface.child with
    | .exited => { interface with eventProc := 0, child := .idle }
    | _ => interface

/-! ### The child's side -/

/-- What a call of `send` returns. -/
inductive SendResult where
  | sent (count : Nat)
  | again
  | failed
deriving DecidableEq, Repr

/-- What `writeExact` writes of a text while its calls of `send` return the given
results, and what it returns when they are enough to end it. -/
def writeExact (timeOutSecs : Nat) : Nat → List Char → List SendResult → List Char × Option Int
  | timeOutCtr, buf, results =>
      if buf = [] ∨ timeOutSecs ≤ timeOutCtr then
        ([], some (if timeOutCtr < timeOutSecs then 1 else -2))
      else
        match results with
        | [] => ([], none)
        | .sent 0 :: _ => ([], some (-1))
        | .sent (count + 1) :: rest =>
            let later := writeExact timeOutSecs timeOutCtr (buf.drop (count + 1)) rest
            (buf.take (count + 1) ++ later.1, later.2)
        | .again :: rest => writeExact timeOutSecs (timeOutCtr + 1) buf rest
        | .failed :: _ => ([], some (-1))

/-- `writeExact` writes a beginning of the text, and returns 1 exactly when it has
written all of it. -/
theorem writeExact_spec {timeOutSecs timeOutCtr : Nat} {buf : List Char}
    {results : List SendResult} (start : buf ≠ [] ∨ timeOutCtr < timeOutSecs) :
    (writeExact timeOutSecs timeOutCtr buf results).1 <+: buf ∧
      ∀ code, (writeExact timeOutSecs timeOutCtr buf results).2 = some code →
        (code = 1 ↔ (writeExact timeOutSecs timeOutCtr buf results).1 = buf) := by
  fun_induction writeExact timeOutSecs timeOutCtr buf results with
  | case1 timeOutCtr buf results ends =>
      refine ⟨List.nil_prefix, ?_⟩
      rintro code ⟨⟩
      by_cases inTime : timeOutCtr < timeOutSecs
      · have none : buf = [] := ends.resolve_right (by omega)
        rw [if_pos inTime]
        exact iff_of_true rfl none.symm
      · have some : buf ≠ [] := start.resolve_right inTime
        rw [if_neg inTime]
        exact iff_of_false (by decide) some.symm
  | case2 timeOutCtr buf goesOn => exact ⟨List.nil_prefix, by rintro code ⟨⟩⟩
  | case3 timeOutCtr buf goesOn rest =>
      refine ⟨List.nil_prefix, ?_⟩
      rintro code ⟨⟩
      exact iff_of_false (by decide) fun none => goesOn (Or.inl none.symm)
  | case4 timeOutCtr buf goesOn count rest later ih =>
      obtain ⟨prefixed, decides⟩ := ih (Or.inr (by omega))
      have split : buf.take (count + 1) ++ buf.drop (count + 1) = buf := List.take_append_drop _ _
      refine ⟨?_, fun code returned => (decides code returned).trans ?_⟩
      · conv_rhs => rw [← split]
        exact (List.prefix_append_right_inj _).mpr prefixed
      · conv_rhs => rhs; rw [← split]
        exact (List.append_right_inj _).symm
  | case5 timeOutCtr buf goesOn rest ih => exact ih (Or.inl fun none => goesOn (Or.inl none))
  | case6 timeOutCtr buf goesOn rest =>
      refine ⟨List.nil_prefix, ?_⟩
      rintro code ⟨⟩
      exact iff_of_false (by decide) fun none => goesOn (Or.inl none.symm)

/-- Whether the connection to the listener was opened; without one the events are
dropped. -/
def openConnectionToEventListener (interface : EventInterface) (opened : Bool) : EventInterface :=
  match interface.child with
  | .connecting eventFifo =>
      if opened then
        { interface with child := .posting eventFifo, connections := [] :: interface.connections }
      else { interface with child := .exited }
  | _ => interface

/-- Append to what was written to the open connection. -/
def appendText (text : List Char) : List (List Char) → List (List Char)
  | [] => []
  | stream :: rest => (stream ++ text) :: rest

/-- What is written of the message of an event, and what `writeExact` returns. -/
def EventInterface.write (interface : EventInterface) (event : RepeaterEvent)
    (results : List SendResult) : List Char × Option Int :=
  writeExact timeout5Secs 0 (eventMessageToListener interface.useHttpForEventListener event) results

/-- One turn of the loop in `doEventWork`, which ignores what `writeExact` returns and goes
on to the next event. -/
def postEvent (interface : EventInterface) (results : List SendResult) : EventInterface :=
  match interface.child with
  | .posting eventFifo =>
      if filled : eventFifo.count ≠ 0 then
        let written := interface.write eventFifo.first results
        let connections := appendText written.1 interface.connections
        match written.2 with
        | some code =>
            { interface with
              child := .posting (eventFifo.drop filled)
              connections := connections
              posted := if code = 1 then interface.posted ++ [eventFifo.first]
                else interface.posted }
        -- The results do not end the call: a signal has ended the child in it.
        | none => { interface with child := .exited, connections := connections }
      else { interface with child := .exited }
  | _ => interface

/-- A signal ends the child. -/
def killEventProc (interface : EventInterface) : EventInterface :=
  match interface.child with
  | .connecting _ => { interface with child := .exited }
  | .posting _ => { interface with child := .exited }
  | _ => interface

/-! ### Runs -/

/-- A step of the repeater or of the child. -/
inductive EventStep where
  | sendRepeaterEvent (now : Int64) (event : RepeaterEvent)
  | handleRepeaterEvents (pid : Int32)
  | openConnectionToEventListener (opened : Bool)
  | postEvent (results : List SendResult)
  | killEventProc

/-- The repeater gets the pid of the child from `fork`, or -1. -/
def EventStep.Legal : EventStep → Prop
  | .handleRepeaterEvents pid => pid = -1 ∨ 0 < pid
  | _ => True

instance : DecidablePred EventStep.Legal
  | .sendRepeaterEvent _ _ => .isTrue trivial
  | .handleRepeaterEvents _ => inferInstanceAs (Decidable (_ ∨ _))
  | .openConnectionToEventListener _ => .isTrue trivial
  | .postEvent _ => .isTrue trivial
  | .killEventProc => .isTrue trivial

/-- A step of the main process or of the child that posts. -/
def EventInterface.step (interface : EventInterface) : EventStep → EventInterface
  | .sendRepeaterEvent now event => sendRepeaterEvent interface now event
  | .handleRepeaterEvents pid => handleRepeaterEvents interface pid
  | .openConnectionToEventListener opened => openConnectionToEventListener interface opened
  | .postEvent results => postEvent interface results
  | .killEventProc => killEventProc interface

/-- The events a step gives to the interface. -/
def EventStep.events : EventStep → List RepeaterEvent
  | .sendRepeaterEvent now event => [event.stamp now]
  | _ => []

/-! ### What is on its way -/

/-- The events a child still has to post. -/
def EventProc.pending : EventProc → List RepeaterEvent
  | .connecting eventFifo => eventFifo.items
  | .posting eventFifo => eventFifo.items
  | .idle | .exited => []

/-- The events that were posted, and those on their way. -/
def EventInterface.kept (interface : EventInterface) : List RepeaterEvent :=
  interface.posted ++ (interface.child.pending ++ interface.eventFifo.items)

/-- A child has a pid. -/
def EventInterface.Tracked (interface : EventInterface) : Prop :=
  interface.eventProc = 0 → interface.child = .idle

/-- Every message is written to its end, which the child does not check. -/
def WritesAll (interface : EventInterface) : EventStep → Prop
  | .postEvent results => ∀ eventFifo, interface.child = .posting eventFifo →
      eventFifo.count ≠ 0 → (interface.write eventFifo.first results).2 = some 1
  | _ => True

/-- No event is dropped: there is room for it, its message is written to its end, and no
child ends with events. -/
def KeepsEvents (interface : EventInterface) : EventStep → Prop
  | .sendRepeaterEvent _ _ => interface.eventFifo.count < maxFifoEvents
  | .openConnectionToEventListener opened =>
      ∀ eventFifo, interface.child = .connecting eventFifo → opened = true ∨ eventFifo.items = []
  | .killEventProc => interface.child.pending = []
  | .handleRepeaterEvents _ => True
  | .postEvent results => WritesAll interface (.postEvent results)

section Steps

variable {interface : EventInterface} {event : RepeaterEvent} {now : Int64} {pid : Int32}
  {opened : Bool} {results : List SendResult} {taken : EventStep}

/-- Only `sendRepeaterEvent` gives an event to the interface. -/
theorem exists_send_of_events (sends : taken.events ≠ []) :
    ∃ now event, taken = .sendRepeaterEvent now event := by
  cases taken with
  | sendRepeaterEvent now event => exact ⟨now, event, rfl⟩
  | handleRepeaterEvents pid => exact (sends rfl).elim
  | openConnectionToEventListener opened => exact (sends rfl).elim
  | postEvent results => exact (sends rfl).elim
  | killEventProc => exact (sends rfl).elim

/-- The event is kept exactly when the ring has room. -/
theorem kept_sendRepeaterEvent :
    (sendRepeaterEvent interface now event).kept =
      if interface.eventFifo.count < maxFifoEvents then interface.kept ++ [event.stamp now]
      else interface.kept := by
  have bounded := interface.eventFifo.count_le
  unfold sendRepeaterEvent isFifoFull
  by_cases room : interface.eventFifo.count < maxFifoEvents
  · have notFull : ¬ decide (interface.eventFifo.count = maxFifoEvents) = true := by
      rw [decide_eq_true_eq]
      exact room.ne
    simp only [notFull, Bool.false_eq_true, not_false_eq_true, if_true, putEvent, room, dite_true]
    unfold EventInterface.kept
    dsimp only
    rw [Fifo.items_push, List.append_assoc, List.append_assoc]
  · have full : interface.eventFifo.count = maxFifoEvents := by omega
    simp only [full, decide_true, not_true_eq_false, if_false, lt_irrefl]
    rfl

/-- Only the repeater gives events to the interface. -/
theorem offered_step (interface : EventInterface) (taken : EventStep) :
    (interface.step taken).offered = interface.offered ++ taken.events := by
  cases taken with
  | sendRepeaterEvent now event =>
      change (sendRepeaterEvent interface now event).offered = _
      unfold sendRepeaterEvent
      dsimp only
      split <;> rfl
  | handleRepeaterEvents pid =>
      refine Eq.trans ?_ (List.append_nil _).symm
      change (handleRepeaterEvents interface pid).offered = interface.offered
      unfold handleRepeaterEvents
      split
      · split
        · split <;> rfl
        · rfl
      · split <;> rfl
  | openConnectionToEventListener opened =>
      refine Eq.trans ?_ (List.append_nil _).symm
      change (openConnectionToEventListener interface opened).offered = interface.offered
      unfold openConnectionToEventListener
      split
      · split <;> rfl
      · rfl
  | postEvent results =>
      refine Eq.trans ?_ (List.append_nil _).symm
      change (postEvent interface results).offered = interface.offered
      unfold postEvent
      split
      · split
        · dsimp only
          split <;> rfl
        · rfl
      · rfl
  | killEventProc =>
      refine Eq.trans ?_ (List.append_nil _).symm
      change (killEventProc interface).offered = interface.offered
      unfold killEventProc
      split <;> rfl

/-- The events given to the interface are those of the steps. -/
theorem offered_run (interface : EventInterface) (steps : List EventStep) :
    (run EventInterface.step interface steps).offered =
      interface.offered ++ steps.flatMap EventStep.events := by
  induction steps generalizing interface with
  | nil => exact (List.append_nil _).symm
  | cons taken rest ih =>
      rw [run_cons, ih, offered_step, List.append_assoc, List.flatMap_cons]

/-- The ring goes to the child as it is. -/
theorem kept_handleRepeaterEvents (pid : Int32) (tracked : interface.Tracked) :
    (handleRepeaterEvents interface pid).kept = interface.kept := by
  unfold handleRepeaterEvents
  split
  · next none =>
      split
      · split
        · rfl
        · unfold EventInterface.kept
          dsimp only
          rw [tracked none, EventProc.pending, Fifo.items_clear, List.append_nil]
          rfl
      · rfl
  · split
    · next gone =>
        unfold EventInterface.kept
        dsimp only
        rw [gone]
        rfl
    · rfl

/-- A step that leaves fewer events with the child has lost some. -/
theorem kept_sublist_of_pending {next : EventInterface}
    (posted : next.posted = interface.posted) (eventFifo : next.eventFifo = interface.eventFifo)
    (pending : next.child.pending <:+ interface.child.pending) :
    next.kept.Sublist interface.kept ∧
      (next.kept = interface.kept ↔ next.child.pending = interface.child.pending) := by
  unfold EventInterface.kept
  rw [posted, eventFifo]
  exact ⟨(pending.sublist.append_right _).append_left _,
    by rw [List.append_right_inj, List.append_left_inj]⟩

/-- A child that ends loses the events it has. -/
theorem kept_sublist_of_ended {next : EventInterface}
    (posted : next.posted = interface.posted) (eventFifo : next.eventFifo = interface.eventFifo)
    (ended : next.child.pending = []) :
    next.kept.Sublist interface.kept ∧
      (next.kept = interface.kept ↔ interface.child.pending = []) := by
  obtain ⟨sublist, same⟩ := kept_sublist_of_pending posted eventFifo (ended ▸ List.nil_suffix)
  exact ⟨sublist, same.trans (ended ▸ eq_comm)⟩

/-- A child with events writes its message to the end when `writeExact` returns 1. -/
theorem writesAll_posting {eventFifo : Fifo RepeaterEvent maxFifoEvents}
    (child : interface.child = .posting eventFifo) (filled : eventFifo.count ≠ 0)
    (results : List SendResult) :
    WritesAll interface (.postEvent results) ↔
      (interface.write eventFifo.first results).2 = some 1 := by
  constructor
  · exact fun all => all eventFifo child filled
  · rintro whole _ again -
    cases child.symm.trans again
    exact whole

/-- A turn that takes an event keeps it when its message is written to the end. -/
theorem kept_postEvent_filled {eventFifo : Fifo RepeaterEvent maxFifoEvents}
    (child : interface.child = .posting eventFifo) (filled : eventFifo.count ≠ 0)
    (results : List SendResult) :
    (postEvent interface results).kept.Sublist interface.kept ∧
      ((postEvent interface results).kept = interface.kept ↔
        (interface.write eventFifo.first results).2 = some 1) := by
  have held : interface.child.pending = eventFifo.items := by rw [child, EventProc.pending]
  have first := Fifo.items_eq_cons filled
  unfold postEvent
  simp only [child, filled, ne_eq, not_false_eq_true, dite_true]
  cases returned : (interface.write eventFifo.first results).2 with
  | none =>
      have lost := @kept_sublist_of_ended interface
        { interface with
          child := .exited
          connections := appendText (interface.write eventFifo.first results).1
            interface.connections } rfl rfl rfl
      refine ⟨lost.1, lost.2.trans ?_⟩
      rw [held, first]
      exact iff_of_false (List.cons_ne_nil _ _) (by rintro ⟨⟩)
  | some code =>
      by_cases whole : code = 1
      · subst whole
        have same : interface.posted ++ [eventFifo.first] ++
            ((eventFifo.drop filled).items ++ interface.eventFifo.items) = interface.kept := by
          rw [EventInterface.kept, held, first, List.append_assoc, List.singleton_append,
            List.cons_append]
        exact ⟨(List.Sublist.refl _).trans (same ▸ List.Sublist.refl _), iff_of_true same rfl⟩
      · have lost := @kept_sublist_of_pending interface
          { interface with
            child := .posting (eventFifo.drop filled)
            connections := appendText (interface.write eventFifo.first results).1
              interface.connections } rfl rfl (by rw [held, first]; exact List.suffix_cons _ _)
        simp only [whole, ↓reduceIte, Option.some.injEq, iff_false]
        refine ⟨lost.1, fun same => ?_⟩
        have shorter := congrArg List.length (lost.2.mp same)
        rw [held, first, List.length_cons] at shorter
        exact absurd shorter (Nat.ne_of_lt (Nat.lt_succ_self _))

/-- A turn of the child keeps its events unless it goes on without having written the
message. -/
theorem kept_postEvent (interface : EventInterface) (results : List SendResult) :
    (postEvent interface results).kept.Sublist interface.kept ∧
      ((postEvent interface results).kept = interface.kept ↔
        WritesAll interface (.postEvent results)) := by
  cases child : interface.child with
  | posting eventFifo =>
      by_cases filled : eventFifo.count ≠ 0
      · rw [writesAll_posting child filled]
        exact kept_postEvent_filled child filled results
      · have held : interface.child.pending = [] := by
          rw [child, EventProc.pending]
          exact Fifo.items_eq_nil_iff.mpr (not_not.mp filled)
        have ended : postEvent interface results = { interface with child := .exited } := by
          unfold postEvent
          simp only [child, filled, dite_false]
        have lost := @kept_sublist_of_ended interface { interface with child := .exited } rfl rfl
          rfl
        rw [ended]
        refine ⟨lost.1, iff_of_true (lost.2.mpr held) ?_⟩
        rintro _ again some
        cases child.symm.trans again
        exact (filled some).elim
  | connecting | idle | exited =>
      have same : postEvent interface results = interface := by
        unfold postEvent
        simp only [child]
      rw [same]
      refine ⟨List.Sublist.refl _, iff_of_true rfl ?_⟩
      rintro _ posting
      cases child.symm.trans posting

/-- A step that brings no event keeps those on their way exactly when it drops none. -/
theorem kept_step (tracked : interface.Tracked) (silent : taken.events = []) :
    (interface.step taken).kept.Sublist interface.kept ∧
      ((interface.step taken).kept = interface.kept ↔ KeepsEvents interface taken) := by
  cases taken with
  | sendRepeaterEvent now event => cases silent
  | handleRepeaterEvents pid =>
      have same := kept_handleRepeaterEvents pid tracked
      exact ⟨same ▸ List.Sublist.refl _, iff_of_true same trivial⟩
  | openConnectionToEventListener opened =>
      obtain ⟨useHttp, eventFifo, eventProc, child, connections, offered, posted⟩ := interface
      cases child with
      | connecting copy =>
          cases opened with
          | true => exact ⟨List.Sublist.refl _, iff_of_true rfl fun _ _ => Or.inl rfl⟩
          | false =>
              obtain ⟨sublist, same⟩ := @kept_sublist_of_ended
                ⟨useHttp, eventFifo, eventProc, .connecting copy, connections, offered, posted⟩
                ⟨useHttp, eventFifo, eventProc, .exited, connections, offered, posted⟩ rfl rfl rfl
              refine ⟨sublist, same.trans ⟨fun none => ?_, fun keeps => ?_⟩⟩
              · rintro _ ⟨⟩
                exact Or.inr none
              · exact (keeps copy rfl).resolve_left Bool.false_ne_true
      | posting | idle | exited =>
          exact ⟨List.Sublist.refl _, iff_of_true rfl (by rintro _ ⟨⟩)⟩
  | postEvent results => exact kept_postEvent interface results
  | killEventProc =>
      obtain ⟨useHttp, eventFifo, eventProc, child, connections, offered, posted⟩ := interface
      cases child with
      | connecting copy => exact kept_sublist_of_ended rfl rfl rfl
      | posting copy => exact kept_sublist_of_ended rfl rfl rfl
      | idle | exited => exact ⟨List.Sublist.refl _, iff_of_true rfl rfl⟩

/-- Each step keeps account of what the child has taken. -/
theorem tracked_step (legal : taken.Legal) (tracked : interface.Tracked) :
    (interface.step taken).Tracked := by
  cases taken with
  | sendRepeaterEvent now event =>
      change (sendRepeaterEvent interface now event).Tracked
      unfold sendRepeaterEvent
      dsimp only
      split <;> exact tracked
  | handleRepeaterEvents pid =>
      change (handleRepeaterEvents interface pid).Tracked
      unfold handleRepeaterEvents
      split
      · split
        · split
          · exact tracked
          · next forked =>
              intro none
              have positive := legal.resolve_left forked
              dsimp only at none
              rw [none] at positive
              exact absurd positive (by decide)
        · exact tracked
      · split
        · exact fun _ => rfl
        · exact tracked
  | openConnectionToEventListener opened =>
      change (openConnectionToEventListener interface opened).Tracked
      unfold openConnectionToEventListener
      split
      · next eventFifo connecting =>
          have busy : interface.eventProc ≠ 0 := fun none => by
            rw [tracked none] at connecting
            cases connecting
          split
          · exact fun none => (busy none).elim
          · exact fun none => (busy none).elim
      · exact tracked
  | postEvent results =>
      change (postEvent interface results).Tracked
      unfold postEvent
      split
      · next eventFifo posting =>
          have busy : interface.eventProc ≠ 0 := fun none => by
            rw [tracked none] at posting
            cases posting
          split
          · dsimp only
            split
            · exact fun none => (busy none).elim
            · exact fun none => (busy none).elim
          · exact fun none => (busy none).elim
      · exact tracked
  | killEventProc =>
      change (killEventProc interface).Tracked
      unfold killEventProc
      split
      · next eventFifo connecting =>
          intro none
          rw [tracked none] at connecting
          cases connecting
      · next eventFifo posting =>
          intro none
          rw [tracked none] at posting
          cases posting
      · exact tracked

/-- A step keeps events in their order, and makes up none. -/
theorem kept_sublist_step (tracked : interface.Tracked)
    (ordered : interface.kept.Sublist interface.offered) :
    (interface.step taken).kept.Sublist (interface.step taken).offered := by
  rw [offered_step]
  by_cases silent : taken.events = []
  · rw [silent, List.append_nil]
    exact (kept_step tracked silent).1.trans ordered
  · obtain ⟨now, event, rfl⟩ := exists_send_of_events silent
    change (sendRepeaterEvent interface now event).kept.Sublist _
    rw [kept_sendRepeaterEvent]
    split
    · exact ordered.append_right _
    · exact ordered.trans (List.sublist_append_left _ _)

/-- While nothing has been lost, a step loses nothing exactly when it keeps its
events. -/
theorem kept_eq_step_iff (tracked : interface.Tracked)
    (whole : interface.kept = interface.offered) :
    (interface.step taken).kept = (interface.step taken).offered ↔
      KeepsEvents interface taken := by
  rw [offered_step]
  by_cases silent : taken.events = []
  · rw [silent, List.append_nil]
    rw [← whole]
    exact (kept_step tracked silent).2
  · obtain ⟨now, event, rfl⟩ := exists_send_of_events silent
    change (sendRepeaterEvent interface now event).kept = _ ↔
      interface.eventFifo.count < maxFifoEvents
    rw [kept_sendRepeaterEvent, whole]
    split
    · next room => exact iff_of_true rfl room
    · next full =>
        refine iff_of_false ?_ full
        rw [List.self_eq_append_right]
        exact List.cons_ne_nil _ _

end Steps

/-- The interface after a run from its initial state. -/
abbrev interfaceAfter (useHttp : Bool) (steps : List EventStep) : EventInterface :=
  run EventInterface.step (initRepeaterEventInterface useHttp) steps

section Runs

variable {useHttp : Bool} {steps : List EventStep}

/-- However the repeater and its children interleave, the events posted, then those
with a child, then those in the ring are among the events given to the interface,
each once and in their order. -/
theorem events_in_order (legal : ∀ taken ∈ steps, taken.Legal) :
    (interfaceAfter useHttp steps).kept.Sublist (interfaceAfter useHttp steps).offered := by
  have along : Along EventInterface.step (fun _ taken => taken.Legal)
      (initRepeaterEventInterface useHttp) steps :=
    .of_forall fun _ taken member => legal taken member
  have both := along.run_invariant
    (fun interface => interface.Tracked ∧ interface.kept.Sublist interface.offered)
    (fun _ _ legal both => ⟨tracked_step legal both.1, kept_sublist_step both.1 both.2⟩)
    ⟨fun _ => rfl, List.nil_sublist _⟩
  exact both.2

/-- No event is lost up to any point of a run exactly when no event meets a full
ring, every message is written to its end, and no child ends, for want of a connection or
by a signal, before it has posted its events. -/
theorem no_event_lost_iff (legal : ∀ taken ∈ steps, taken.Legal) :
    Along EventInterface.step
        (fun interface taken => (interface.step taken).kept = (interface.step taken).offered)
        (initRepeaterEventInterface useHttp) steps ↔
      Along EventInterface.step KeepsEvents (initRepeaterEventInterface useHttp) steps := by
  have along : Along EventInterface.step (fun _ taken => taken.Legal)
      (initRepeaterEventInterface useHttp) steps :=
    .of_forall fun _ taken member => legal taken member
  exact along.property_iff EventInterface.Tracked
    (fun interface => interface.kept = interface.offered)
    (fun _ _ legal tracked => tracked_step legal tracked)
    (fun _ _ tracked whole => kept_eq_step_iff tracked whole) (fun _ => rfl) rfl

/-- A signal ends the child before it has posted its event. -/
def killedSteps : List EventStep :=
  [.sendRepeaterEvent 1700000000 .zero, .handleRepeaterEvents 50, .killEventProc]

theorem no_event_lost_iff_killedSteps : ¬ Along EventInterface.step
    (fun interface taken => (interface.step taken).kept = (interface.step taken).offered)
    (initRepeaterEventInterface false) killedSteps := by
  intro whole
  obtain ⟨-, -, keeps, -⟩ := (no_event_lost_iff (by decide)).mp whole
  cases keeps

/-- A run that drops no event keeps all of them. -/
theorem kept_run (legal : ∀ taken ∈ steps, taken.Legal)
    (keeps : Along EventInterface.step KeepsEvents (initRepeaterEventInterface useHttp) steps) :
    (interfaceAfter useHttp steps).kept = (interfaceAfter useHttp steps).offered := by
  have along : Along EventInterface.step
      (fun interface taken => taken.Legal ∧ KeepsEvents interface taken)
      (initRepeaterEventInterface useHttp) steps :=
    along_and.mpr ⟨.of_forall fun _ taken member => legal taken member, keeps⟩
  have both := along.run_invariant
    (fun interface => interface.Tracked ∧ interface.kept = interface.offered)
    (fun _ _ met both =>
      ⟨tracked_step met.1 both.1, (kept_eq_step_iff both.1 both.2).mpr met.2⟩)
    ⟨fun _ => rfl, rfl⟩
  exact both.2

end Runs

end Repeater
