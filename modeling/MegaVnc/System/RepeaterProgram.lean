import MegaVnc.Repeater.RouteConnections
import MegaVnc.System.EventPipeline

/-! # The repeater as a whole

The main loop gives the events of each turn to the event interface and then lets the
interface fork a child, which posts them beside the loop. What the application reads
about a code is a part of the steps the tables took for it, in their order.
-/

namespace MegaVnc

open Repeater Transition

/-- The main loop and the interface that takes its events. -/
structure Program where
  loop : Loop
  interface : EventInterface

/-- A turn of the main loop, or a step of the child that posts events. -/
inductive ProgramStep where
  | loop (turn : LoopTurn) (stamps : Nat → Int64) (eventPid : Int32)
  | child (taken : EventStep)

/-- A child connects, posts and ends; what `fork` and `waitpid` give to a turn. -/
def ProgramStep.Legal (statuses : Int32 → Prop) : ProgramStep → Prop
  | .loop turn _ eventPid => turn.Within statuses ∧ (eventPid = -1 ∨ 0 < eventPid)
  | .child (.sendRepeaterEvent _ _) | .child (.handleRepeaterEvents _) => False
  | .child _ => True

variable (config : Config)

/-- The event `main` sends before the loop. -/
def startupEvent (now : Int64) : RepeaterEvent where
  timeStamp := now
  repeaterProcessId := config.getpid
  extraInfo := .startEnd .repeaterStartup ⟨Int32.ofNat config.maxSessions⟩

/-- The startup event is the first one given to the interface. -/
def Program.start (now : Int64) : Program where
  loop := .start config
  interface := sendRepeaterEvent (initRepeaterEventInterface false) now (startupEvent config now)

/-- The events that a turn adds. -/
def newEvents (loop : Loop) (turn : LoopTurn) : List RepeaterEvent :=
  (routeConnections config loop turn).state.sent.drop loop.state.sent.length

/-- The steps of the event interface in a step of the program. -/
def ProgramStep.calls (loop : Loop) : ProgramStep → List EventStep
  | .loop turn stamps eventPid =>
      if turn.selectOk then
        (newEvents config loop turn).mapIdx (fun index event =>
          EventStep.sendRepeaterEvent (stamps index) event) ++ [.handleRepeaterEvents eventPid]
      else []
  | .child taken => [taken]

/-- A step of a child leaves the loop. -/
def ProgramStep.stepLoop (loop : Loop) : ProgramStep → Loop
  | .loop turn _ _ => routeConnections config loop turn
  | .child _ => loop

/-- A turn gives its events to the interface; a child takes its own steps. -/
def Program.step (program : Program) (taken : ProgramStep) : Program where
  loop := taken.stepLoop config program.loop
  interface := run EventInterface.step program.interface (taken.calls config program.loop)

/-- A condition on the steps of the interface, as one on the steps of the program. -/
def OnCalls (condition : EventInterface → EventStep → Prop) (program : Program)
    (taken : ProgramStep) : Prop :=
  Along EventInterface.step condition program.interface (taken.calls config program.loop)

/-- The steps of the event interface in a run. -/
def interfaceSteps : Loop → List ProgramStep → List EventStep
  | _, [] => []
  | loop, taken :: rest =>
      taken.calls config loop ++ interfaceSteps (taken.stepLoop config loop) rest

section Steps

variable {config : Config} {statuses : Int32 → Prop} {program : Program} {taken : ProgramStep}
  {code : Int64}

/-- The interface of a run is the run of the interface's own steps. -/
theorem interface_run (steps : List ProgramStep) (program : Program) :
    (run (Program.step config) program steps).interface =
      run EventInterface.step program.interface (interfaceSteps config program.loop steps) := by
  induction steps generalizing program with
  | nil => rfl
  | cons taken rest ih =>
      rw [run_cons, ih, interfaceSteps, run_append]
      rfl

/-- A condition on the steps of the interface may be asked of the program's. -/
theorem along_onCalls (condition : EventInterface → EventStep → Prop) (steps : List ProgramStep)
    (program : Program) :
    Along (Program.step config) (OnCalls config condition) program steps ↔
      Along EventInterface.step condition program.interface
        (interfaceSteps config program.loop steps) := by
  induction steps generalizing program with
  | nil => exact Iff.rfl
  | cons taken rest ih =>
      rw [along_cons, ih, interfaceSteps, along_append]
      exact Iff.rfl

/-- What a legal step asks of the interface is legal. -/
theorem legal_calls (legal : taken.Legal statuses) (loop : Loop) :
    ∀ call ∈ taken.calls config loop, call.Legal := by
  cases taken with
  | loop turn stamps eventPid =>
      intro call member
      rw [ProgramStep.calls] at member
      split at member
      · rcases List.mem_append.mp member with sends | handles
        · obtain ⟨index, inside, rfl⟩ := List.mem_mapIdx.mp sends
          trivial
        · rw [List.mem_singleton.mp handles]
          exact legal.2
      · cases member
  | child taken =>
      refine List.forall_mem_singleton.mpr ?_
      cases taken with
      | handleRepeaterEvents pid => exact legal.elim
      | sendRepeaterEvent now event => trivial
      | openConnectionToEventListener opened => trivial
      | postEvent results => trivial
      | killEventProc => trivial

/-- The steps of the interface in a legal run are legal. -/
theorem legal_interfaceSteps {steps : List ProgramStep}
    (legal : ∀ taken ∈ steps, taken.Legal statuses) (loop : Loop) :
    ∀ call ∈ interfaceSteps config loop steps, call.Legal := by
  induction steps generalizing loop with
  | nil => exact fun _ none => by cases none
  | cons taken rest ih =>
      obtain ⟨first, later⟩ := List.forall_mem_cons.mp legal
      rw [interfaceSteps]
      exact List.forall_mem_append.mpr ⟨legal_calls first loop, ih later _⟩

/-! ### The events given to the interface -/

/-- A turn only adds events. -/
theorem sent_routeConnections (loop : Loop) (turn : LoopTurn) :
    (routeConnections config loop turn).state.sent =
      loop.state.sent ++ newEvents config loop turn := by
  have kept : loop.state.sent <+: (routeConnections config loop turn).state.sent := by
    have grows {state : State} (events : List RepeaterEvent)
        (held : loop.state.sent <+: state.sent) : loop.state.sent <+: state.sent ++ events :=
      held.trans (List.prefix_append _ _)
    refine routeConnections_invariant (fun state => loop.state.sent <+: state.sent)
      ?_ (fun _ _ _ held => grows _ held) (fun _ held => grows _ held) ?_ List.prefix_rfl
    · intro connectionFrom state held
      unfold acceptArrival
      split
      · exact held
      · exact grows _ held
    · intro index state held
      unfold callCleanUp
      dsimp only
      split
      · split
        · exact held
        · exact grows _ held
      · exact held
  exact (List.prefix_iff_eq_append.mp kept).symm

theorem numbersOf_stamp (code : Int64) (event : RepeaterEvent) (now : Int64) :
    numbersOf code [event.stamp now] = numbersOf code [event] := by
  rw [numbersOf_cons, numbersOf_cons]
  rfl

/-- The interface is given the events of a turn in their order. -/
theorem numbersOf_flatMap_sent (code : Int64) (stamps : Nat → Int64)
    (events : List RepeaterEvent) :
    numbersOf code ((events.mapIdx fun index event =>
      EventStep.sendRepeaterEvent (stamps index) event).flatMap EventStep.events) =
      numbersOf code events := by
  induction events generalizing stamps with
  | nil => rfl
  | cons event rest ih =>
      rw [List.mapIdx_cons, List.flatMap_cons, numbersOf_append, ih fun index => stamps (index + 1),
        EventStep.events, numbersOf_stamp, ← numbersOf_append, List.singleton_append]

/-- The interface is given the events that the loop sends. -/
theorem numbersOf_offered_step (legal : taken.Legal statuses)
    (same : numbersOf code program.interface.offered = numbersOf code program.loop.state.sent) :
    numbersOf code (program.step config taken).interface.offered =
      numbersOf code (program.step config taken).loop.state.sent := by
  rw [Program.step, offered_run, numbersOf_append, same]
  cases taken with
  | loop turn stamps eventPid =>
      rw [ProgramStep.stepLoop, sent_routeConnections, numbersOf_append, ProgramStep.calls]
      congr 1
      split
      · rw [List.flatMap_append, numbersOf_append, numbersOf_flatMap_sent]
        exact List.append_nil _
      · next failed =>
          have still : newEvents config program.loop turn = [] := by
            rw [newEvents, routeConnections, if_neg failed, List.drop_length]
          rw [still]
          rfl
  | child taken =>
      have silent : [taken].flatMap EventStep.events = [] := by
        cases taken with
        | sendRepeaterEvent now event => exact legal.elim
        | handleRepeaterEvents pid => rfl
        | openConnectionToEventListener opened => rfl
        | postEvent results => rfl
        | killEventProc => rfl
      rw [ProgramStep.calls, silent]
      exact List.append_nil _

/-- The loop's events about a code are those of the tables. -/
theorem numbersOf_filter_isTableEvent (named : code ≠ 0) (events : List RepeaterEvent) :
    numbersOf code (events.filter isTableEvent) = numbersOf code events := by
  rw [numbersOf, numbersOf, List.filter_filter]
  congr 1
  apply List.filter_congr
  intro event _
  rcases event with ⟨timeStamp, repeaterProcessId, extraInfo⟩
  cases extraInfo with
  | connection number connEv => cases number <;> exact Bool.and_true _
  | session number sessEv => cases number <;> exact Bool.and_true _
  | startEnd number seEv =>
      have other : decide ((0 : Int64) = code) = false := decide_eq_false named.symm
      exact (congrArg (· && _) other).trans other.symm

end Steps

/-! ### What the application receives -/

section Runs

variable {config : Config} {now : Int64} {steps : List ProgramStep} {code : Int64}

/-- The run of the interface in a run of the program. -/
def interfaceInputs (config : Config) (now : Int64) (steps : List ProgramStep) :
    List EventStep :=
  .sendRepeaterEvent now (startupEvent config now) :: interfaceSteps config (.start config) steps

theorem interface_run_start : (run (Program.step config) (.start config now) steps).interface =
    interfaceAfter false (interfaceInputs config now steps) :=
  interface_run steps (.start config now)

theorem legal_interfaceInputs (config : Config) (now : Int64) {statuses : Int32 → Prop}
    (legal : ∀ taken ∈ steps, taken.Legal statuses) :
    ∀ call ∈ interfaceInputs config now steps, call.Legal :=
  List.forall_mem_cons.mpr ⟨trivial, legal_interfaceSteps legal _⟩

/-- A condition on the steps of a run holds along them when the startup event meets it too. -/
theorem along_interfaceInputs {condition : EventInterface → EventStep → Prop}
    (first : condition (initRepeaterEventInterface false)
      (.sendRepeaterEvent now (startupEvent config now)))
    (along : Along (Program.step config) (OnCalls config condition) (.start config now) steps) :
    Along EventInterface.step condition (initRepeaterEventInterface false)
      (interfaceInputs config now steps) :=
  ⟨first, (along_onCalls condition steps (.start config now)).mp along⟩

/-- The loop of the program is in a state the tables reach, and its events about a
code are those given to the interface. -/
theorem program_run (config : Config) (now : Int64) {statuses : Int32 → Prop}
    (legal : ∀ taken ∈ steps, taken.Legal statuses) (named : code ≠ 0) :
    let program := run (Program.step config) (.start config now) steps
    program.loop.state.Reached config statuses ∧
      numbersOf code program.interface.offered = numbersOf code program.loop.state.sent := by
  have along : Along (Program.step config) (fun _ taken => taken.Legal statuses)
      (.start config now) steps := .of_forall fun _ taken member => legal taken member
  refine along.run_invariant (fun program => program.loop.state.Reached config statuses ∧
    numbersOf code program.interface.offered = numbersOf code program.loop.state.sent) ?_ ?_
  · rintro program taken legal ⟨reached, same⟩
    refine ⟨?_, numbersOf_offered_step legal same⟩
    cases taken with
    | loop turn stamps eventPid => exact reached_routeConnections legal.1 reached
    | child taken => exact reached
  · refine ⟨⟨[], List.forall_mem_nil _, rfl, rfl⟩, ?_⟩
    change numbersOf code (EventInterface.step (initRepeaterEventInterface false)
      (.sendRepeaterEvent now (startupEvent config now))).offered = []
    rw [offered_step]
    change numbersOf code [(startupEvent config now).stamp now] = []
    exact numbersOf_eq_nil (List.forall_mem_singleton.mpr rfl) named

/-- However the loop and the children that post events interleave, what the
application receives about a code are lines of steps that the rendezvous of the code
took, in their order, and its tables are in the phase those steps lead to. Once
nothing is on its way the lines tell every step, if no event was dropped. -/
theorem lines_of_program (named : code ≠ 0)
    (legal : ∀ taken ∈ steps, taken.Legal (· ∈ closingExitCodes))
    (written : Along (Program.step config) (OnCalls config WritesAll) (.start config now) steps) :
    let program := run (Program.step config) (.start config now) steps
    linesReceived program.interface = program.interface.posted.map RepeaterEvent.line ∧
      ∃ phase numbers, program.loop.state.lists.At code phase ∧ Phase.Reached numbers phase ∧
        (numbersOf code program.interface.posted).Sublist numbers ∧
        (Along (Program.step config) (OnCalls config KeepsEvents) (.start config now) steps →
          program.interface.child.pending = [] → program.interface.eventFifo.items = [] →
          numbersOf code program.interface.posted = numbers) := by
  intro program
  obtain ⟨⟨inputs, follows⟩, offered⟩ := program_run config now legal named
  obtain ⟨phase, held, reached⟩ :=
    exists_phase config (fun input member => (follows.within input member).legal) named
  have interface : program.interface = interfaceAfter false (interfaceInputs config now steps) :=
    interface_run_start
  have calls := legal_interfaceInputs config now legal
  have numbers : numbersOf code program.interface.offered =
      numbersOf code (run (step config) (start config) inputs).sent := by
    rw [← follows.sent, numbersOf_filter_isTableEvent named]
    exact offered
  refine ⟨?_, phase, _, follows.lists ▸ held, reached, ?_, ?_⟩
  · rw [interface]
    exact linesReceived_run (along_interfaceInputs trivial written)
  · rw [← numbers, interface]
    exact ((posted_sublist_run calls).filter _).map _
  · intro keeps pending items
    have room : KeepsEvents (initRepeaterEventInterface false)
        (.sendRepeaterEvent now (startupEvent config now)) := Nat.zero_lt_succ _
    rw [interface] at pending items
    rw [← numbers, interface, posted_eq_run calls (along_interfaceInputs room keeps) pending items]

/-- A server arrives, and a child posts what there is to post. -/
def serverSteps : List ProgramStep :=
  [.loop serverTurn (fun _ => 1700000000) 50, .child (.openConnectionToEventListener true),
    .child (.postEvent [.sent 200]), .child (.postEvent [.sent 200]), .child (.postEvent [])]

theorem lines_of_program_serverSteps :
    let program := run (Program.step twoSessions) (.start twoSessions 1700000000) serverSteps
    linesReceived program.interface = program.interface.posted.map RepeaterEvent.line ∧
      (∃ phase numbers, program.loop.state.lists.At 7 phase ∧ Phase.Reached numbers phase ∧
        numbersOf 7 program.interface.posted = numbers) ∧
      numbersOf 7 program.interface.posted = [2] := by
  intro program
  have legal : ∀ taken ∈ serverSteps, taken.Legal (· ∈ closingExitCodes) := by
    refine List.forall_mem_cons.mpr ⟨⟨within_serverTurn, by decide⟩, ?_⟩
    simp only [List.forall_mem_cons, ProgramStep.Legal, true_and]
    exact List.forall_mem_nil _
  have written : Along (Program.step twoSessions) (OnCalls twoSessions WritesAll)
      (.start twoSessions 1700000000) serverSteps := by
    refine ⟨⟨trivial, trivial, trivial⟩, ⟨trivial, trivial⟩, ⟨?_, trivial⟩, ⟨?_, trivial⟩,
      ⟨?_, trivial⟩, trivial⟩
    · rintro eventFifo ⟨⟩ _
      decide
    · rintro eventFifo ⟨⟩ _
      decide
    · rintro eventFifo ⟨⟩ empty
      exact (empty rfl).elim
  have keeps : Along (Program.step twoSessions) (OnCalls twoSessions KeepsEvents)
      (.start twoSessions 1700000000) serverSteps := by
    obtain ⟨-, -, first, second, ended, -⟩ := written
    refine ⟨⟨?_, trivial, trivial⟩, ⟨?_, trivial⟩, first, second, ended, trivial⟩
    · change 1 < maxFifoEvents
      decide
    · exact fun _ _ => Or.inl rfl
  obtain ⟨lines, phase, numbers, held, reached, -, every⟩ :=
    lines_of_program (by decide : (7 : Int64) ≠ 0) legal written
  exact ⟨lines, ⟨phase, numbers, held, reached, every keeps (by decide) (by decide)⟩, by decide⟩

end Runs

end MegaVnc
