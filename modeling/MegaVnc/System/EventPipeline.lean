import MegaVnc.Foundation.Lines
import MegaVnc.Repeater.EventInterface
import MegaVnc.System.EventLine
import MegaVnc.Tcp.MessageService

/-! # From the repeater's events to the application's lines

Each child writes whole messages to its connection, one after the other, and the
codec of the application cuts a connection into lines. When no write is given up,
the lines are those of the events posted.
-/

namespace MegaVnc

open Repeater Text Transition MessageService

/-- The lines the codec cuts out of all connections, in the order of time. -/
def linesReceived (interface : EventInterface) : List String :=
  (interface.connections.reverse.flatMap (linesOf '\n')).map String.ofList

/-- The connections hold the messages of groups of events, the last group first. -/
structure Written (interface : EventInterface) (groups : List (List RepeaterEvent)) : Prop where
  plain : interface.useHttpForEventListener = false
  connections : interface.connections = groups.map fun group => group.flatMap doEventWork
  posted : interface.posted = groups.reverse.flatten
  opened : ∀ eventFifo, interface.child = .posting eventFifo → groups ≠ []

section Steps

variable {interface : EventInterface} {taken : EventStep} {groups : List (List RepeaterEvent)}

/-- The rest of the interface is what the groups do not depend on. -/
theorem Written.congr {next : EventInterface} (written : Written interface groups)
    (plain : next.useHttpForEventListener = interface.useHttpForEventListener)
    (connections : next.connections = interface.connections)
    (posted : next.posted = interface.posted)
    (child : ∀ eventFifo, next.child = .posting eventFifo →
      ∃ eventFifo, interface.child = .posting eventFifo) : Written next groups where
  plain := plain.trans written.plain
  connections := connections.trans written.connections
  posted := posted.trans written.posted
  opened eventFifo posting := by
    obtain ⟨earlier, posted⟩ := child eventFifo posting
    exact written.opened earlier posted

/-- A post that is written to its end adds the line of its event to the stream. -/
theorem written_postEvent {results : List SendResult} (written : Written interface groups)
    (all : WritesAll interface (.postEvent results)) :
    ∃ groups, Written (postEvent interface results) groups := by
  unfold postEvent
  split
  · next eventFifo posting =>
      split
      · next filled =>
          obtain ⟨group, rest, rfl⟩ := List.exists_cons_of_ne_nil (written.opened eventFifo posting)
          have ends := all eventFifo posting filled
          have whole : (interface.write eventFifo.first results).1 =
              doEventWork eventFifo.first := by
            have message := ((writeExact_spec (Or.inr (by decide))).2 1 ends).mp rfl
            rw [written.plain, eventMessageToListener_false] at message
            rw [EventInterface.write, written.plain, eventMessageToListener_false]
            exact message
          dsimp only
          rw [ends, whole]
          refine ⟨(group ++ [eventFifo.first]) :: rest, written.plain, ?_, ?_,
            fun _ _ => List.cons_ne_nil _ _⟩
          · dsimp only
            rw [written.connections, List.map_cons, appendText, List.map_cons,
              List.flatMap_append, List.flatMap_singleton]
          · dsimp only
            rw [if_pos rfl, written.posted, List.reverse_cons, List.reverse_cons,
              List.flatten_append, List.flatten_append, List.flatten_singleton,
              List.flatten_singleton, List.append_assoc]
      · exact ⟨groups, written.congr rfl rfl rfl fun _ none => by cases none⟩
  · exact ⟨groups, written⟩

/-- While all messages are written to their end, the streams are made of whole lines. -/
theorem written_step (written : ∃ groups, Written interface groups)
    (all : WritesAll interface taken) : ∃ groups, Written (interface.step taken) groups := by
  obtain ⟨groups, written⟩ := written
  cases taken with
  | sendRepeaterEvent now event =>
      change ∃ groups, Written (sendRepeaterEvent interface now event) groups
      unfold sendRepeaterEvent
      dsimp only
      split
      · exact ⟨groups, written.congr rfl rfl rfl fun eventFifo posting => ⟨eventFifo, posting⟩⟩
      · exact ⟨groups, written.congr rfl rfl rfl fun eventFifo posting => ⟨eventFifo, posting⟩⟩
  | handleRepeaterEvents pid =>
      change ∃ groups, Written (handleRepeaterEvents interface pid) groups
      unfold handleRepeaterEvents
      split
      · split
        · split
          · exact ⟨groups, written⟩
          · exact ⟨groups, written.congr rfl rfl rfl fun _ posting => by cases posting⟩
        · exact ⟨groups, written⟩
      · split
        · exact ⟨groups, written.congr rfl rfl rfl fun _ posting => by cases posting⟩
        · exact ⟨groups, written⟩
  | openConnectionToEventListener opened =>
      change ∃ groups, Written (openConnectionToEventListener interface opened) groups
      unfold openConnectionToEventListener
      split
      · split
        · refine ⟨[] :: groups, written.plain, ?_, ?_, fun _ _ => List.cons_ne_nil _ _⟩
          · dsimp only
            rw [written.connections]
            rfl
          · dsimp only
            rw [written.posted, List.reverse_cons, List.flatten_append, List.flatten_singleton,
              List.append_nil]
        · exact ⟨groups, written.congr rfl rfl rfl fun _ posting => by cases posting⟩
      · exact ⟨groups, written⟩
  | postEvent results => exact written_postEvent written all
  | killEventProc =>
      change ∃ groups, Written (killEventProc interface) groups
      unfold killEventProc
      split
      · exact ⟨groups, written.congr rfl rfl rfl fun _ posting => by cases posting⟩
      · exact ⟨groups, written.congr rfl rfl rfl fun _ posting => by cases posting⟩
      · exact ⟨groups, written⟩

theorem doEventWork_eq_line (event : RepeaterEvent) :
    doEventWork event = event.line.toList ++ ['\n'] := by
  rw [doEventWork_eq, line_eq, String.toList_ofList]

/-- Streams of whole lines are received as the events that were posted. -/
theorem Written.linesReceived (written : Written interface groups) :
    linesReceived interface = interface.posted.map RepeaterEvent.line := by
  have clean (event : RepeaterEvent) : '\n' ∉ event.line.toList := by
    rw [RepeaterEvent.line, lf, String.toList_ofList]
    intro member
    exact absurd (List.mem_takeWhile_imp member) (by decide)
  have cut (group : List RepeaterEvent) : linesOf '\n' (group.flatMap doEventWork) =
      group.map fun event => event.line.toList := by
    have messages : group.flatMap doEventWork =
        group.flatMap fun event => event.line.toList ++ ['\n'] := by
      congr 1
      funext event
      exact doEventWork_eq_line event
    rw [messages]
    exact linesOf_flatMap clean group
  rw [MegaVnc.linesReceived, written.connections, written.posted, ← List.map_reverse]
  generalize groups.reverse = ordered
  induction ordered with
  | nil => rfl
  | cons group rest ih =>
      rw [List.map_cons, List.flatMap_cons, List.map_append, ih, cut, List.map_map,
        List.flatten_cons, List.map_append]
      congr 1
      apply List.map_congr_left
      intro event _
      exact String.ofList_toList

end Steps

section Runs

variable {steps : List EventStep}

/-- When every message is written to its end, the application receives the lines of
the events posted. -/
theorem linesReceived_run
    (all : Along EventInterface.step WritesAll (initRepeaterEventInterface false) steps) :
    linesReceived (interfaceAfter false steps) =
      (interfaceAfter false steps).posted.map RepeaterEvent.line := by
  have written : ∃ groups, Written (interfaceAfter false steps) groups :=
    all.run_invariant (fun interface => ∃ groups, Written interface groups)
      (fun _ _ all written => written_step written all)
      ⟨[], rfl, rfl, rfl, by rintro _ ⟨⟩⟩
  obtain ⟨groups, written⟩ := written
  exact written.linesReceived

theorem posted_sublist_run (legal : ∀ taken ∈ steps, taken.Legal) :
    (interfaceAfter false steps).posted.Sublist (interfaceAfter false steps).offered :=
  (List.sublist_append_left _ _).trans (events_in_order legal)

/-- When nothing was dropped and nothing is on its way, all of them have been posted. -/
theorem posted_eq_run (legal : ∀ taken ∈ steps, taken.Legal)
    (keeps : Along EventInterface.step KeepsEvents (initRepeaterEventInterface false) steps)
    (pending : (interfaceAfter false steps).child.pending = [])
    (items : (interfaceAfter false steps).eventFifo.items = []) :
    (interfaceAfter false steps).posted = (interfaceAfter false steps).offered := by
  have kept := kept_run legal keeps
  rw [EventInterface.kept, pending, items, List.append_nil, List.append_nil] at kept
  exact kept

/-- When every message is written to its end, the application receives exactly the
lines of the events posted, which are among the events given to the interface, each
once and in their order; they are all of them once nothing is on its way, if nothing
was dropped. -/
theorem lines_of_events (legal : ∀ taken ∈ steps, taken.Legal)
    (all : Along EventInterface.step WritesAll (initRepeaterEventInterface false) steps) :
    let interface := interfaceAfter false steps
    linesReceived interface = interface.posted.map RepeaterEvent.line ∧
      interface.posted.Sublist interface.offered ∧
      (Along EventInterface.step KeepsEvents (initRepeaterEventInterface false) steps →
        interface.child.pending = [] → interface.eventFifo.items = [] →
        interface.posted = interface.offered) :=
  ⟨linesReceived_run all, posted_sublist_run legal, posted_eq_run legal⟩

/-- A child posts one event. -/
def postedSteps : List EventStep :=
  [.sendRepeaterEvent 1700000000 .zero, .handleRepeaterEvents 50,
    .openConnectionToEventListener true, .postEvent [.sent 200], .postEvent []]

theorem lines_of_events_postedSteps :
    let interface := interfaceAfter false postedSteps
    linesReceived interface = interface.posted.map RepeaterEvent.line ∧
      interface.posted = interface.offered ∧ interface.posted = [.stamp .zero 1700000000] := by
  intro interface
  have all : Along EventInterface.step WritesAll (initRepeaterEventInterface false)
      postedSteps := by
    refine ⟨trivial, trivial, trivial, ?_, ?_, trivial⟩
    · rintro eventFifo ⟨⟩ _
      decide
    · rintro eventFifo ⟨⟩ empty
      exact (empty rfl).elim
  have keeps : Along EventInterface.step KeepsEvents (initRepeaterEventInterface false)
      postedSteps := by
    obtain ⟨-, -, -, posted, ended, -⟩ := all
    exact ⟨Nat.zero_lt_succ _, trivial, fun _ _ => Or.inl rfl, posted, ended, trivial⟩
  obtain ⟨lines, -, everything⟩ := lines_of_events (by decide) all
  exact ⟨lines, everything keeps rfl rfl, rfl⟩

end Runs

/-! ### HTTP requests

With `usehttp` each event is sent as a request, whose fields are not separated by
colons and commas. -/

section Http

variable {interface : EventInterface} {taken : EventStep} {steps : List EventStep}

/-- A request holds no colon. -/
theorem colon_not_mem_httpMessage (event : RepeaterEvent) :
    ':' ∉ eventMessageToListener true event := by
  unfold eventMessageToListener Formats.message
  rw [if_pos rfl]
  split
  · exact not_mem_snprintf (by decide) (by decide) (by decide +kernel)
  · exact not_mem_snprintf (by decide) (by decide) (by decide +kernel)
  · exact not_mem_snprintf (by decide) (by decide) (by decide +kernel)

/-- Only requests are sent, and no connection has carried a colon. -/
structure Colonless (interface : EventInterface) : Prop where
  http : interface.useHttpForEventListener = true
  clean : ∀ stream ∈ interface.connections, ':' ∉ stream

/-- No step puts a colon into a stream of HTTP requests. -/
theorem Colonless.step (colonless : Colonless interface) : Colonless (interface.step taken) := by
  obtain ⟨http, clean⟩ := colonless
  cases taken with
  | sendRepeaterEvent now event =>
      change Colonless (sendRepeaterEvent interface now event)
      unfold sendRepeaterEvent
      dsimp only
      split <;> exact ⟨http, clean⟩
  | handleRepeaterEvents pid =>
      change Colonless (handleRepeaterEvents interface pid)
      unfold handleRepeaterEvents
      split
      · split
        · split <;> exact ⟨http, clean⟩
        · exact ⟨http, clean⟩
      · split <;> exact ⟨http, clean⟩
  | openConnectionToEventListener opened =>
      change Colonless (openConnectionToEventListener interface opened)
      unfold openConnectionToEventListener
      split
      · split
        · exact ⟨http, List.forall_mem_cons.mpr ⟨List.not_mem_nil, clean⟩⟩
        · exact ⟨http, clean⟩
      · exact ⟨http, clean⟩
  | postEvent results =>
      change Colonless (postEvent interface results)
      unfold postEvent
      split
      · next eventFifo posting =>
          split
          · next filled =>
              have carried : ∀ stream ∈ appendText
                  (interface.write eventFifo.first results).1 interface.connections,
                  ':' ∉ stream := by
                cases streams : interface.connections with
                | nil => exact List.forall_mem_nil _
                | cons stream rest =>
                    rw [streams] at clean
                    obtain ⟨first, others⟩ := List.forall_mem_cons.mp clean
                    refine List.forall_mem_cons.mpr ⟨fun member => ?_, others⟩
                    rcases List.mem_append.mp member with old | new
                    · exact first old
                    · have sent := (writeExact_spec (Or.inr (by decide))).1.subset new
                      rw [http] at sent
                      exact colon_not_mem_httpMessage _ sent
              dsimp only
              split <;> exact ⟨http, carried⟩
          · exact ⟨http, clean⟩
      · exact ⟨http, clean⟩
  | killEventProc =>
      change Colonless (killEventProc interface)
      unfold killEventProc
      split <;> exact ⟨http, clean⟩

/-- A line without a colon has no field. -/
theorem parseMessage_of_colonless {message : String} (clean : ':' ∉ message.toList) :
    ∃ exception, parseMessage message = .error exception := by
  have tokens : ∀ token ∈ split ',' message.toList, ':' ∉ token :=
    fun token member inside => clean (mem_of_mem_split member inside)
  unfold parseMessage
  cases splits : split ',' message.toList with
  | nil => exact ⟨.numberFormatException, rfl⟩
  | cons token rest =>
      rw [splits] at tokens
      have alone : split ':' token = [token] := if_neg (tokens token List.mem_cons_self)
      refine ⟨.arrayIndexOutOfBoundsException, ?_⟩
      rw [putTokens, alone]
      rfl

/-- With `usehttp` the application refuses every line it receives, whatever happens:
none changes anything. -/
theorem http_lines_refused {line : String}
    (received : line ∈ linesReceived (interfaceAfter true steps)) (world : World) (now : Date) :
    ∃ exception, processMessage world now line = (.error exception, world) := by
  have along : Along EventInterface.step (fun _ _ => True) (initRepeaterEventInterface true)
      steps := .of_forall fun _ _ _ => trivial
  have colonless : Colonless (interfaceAfter true steps) :=
    along.run_invariant Colonless (fun _ _ _ colonless => colonless.step)
      ⟨rfl, List.forall_mem_nil _⟩
  obtain ⟨text, cut, rfl⟩ := List.mem_map.mp received
  obtain ⟨stream, opened, inside⟩ := List.mem_flatMap.mp cut
  have clean : ':' ∉ (String.ofList text).toList := by
    rw [String.toList_ofList]
    intro member
    exact colonless.clean stream (List.mem_reverse.mp opened) (mem_of_mem_linesOf inside member)
  obtain ⟨exception, refused⟩ := parseMessage_of_colonless clean
  exact ⟨exception, by rw [processMessage, refused]⟩

/-- The request that an event about a viewer becomes. -/
def viewerRequest : String :=
  "GET /? EvMsgVer=1&EvNum=0&Time=1700000000&Pid=0&TblInd=0&Code=0&Mode=0&Ip=0.0.0.0 HTTP/1.0"

theorem http_lines_refused_viewerRequest :
    viewerRequest ∈ linesReceived (interfaceAfter true postedSteps) ∧
      ∃ exception, processMessage .empty 0 viewerRequest = (.error exception, .empty) := by
  have received : viewerRequest ∈ linesReceived (interfaceAfter true postedSteps) := by
    decide +kernel
  exact ⟨received, http_lines_refused received .empty 0⟩

end Http

end MegaVnc
