import MegaVnc.Foundation.Buffer
import MegaVnc.Foundation.Run
import MegaVnc.Repeater.Repeater

/-! # The relay of a session

`doRepeater` runs in a child process: it reads from the server and from the
viewer into a buffer each and sends what the buffers hold to the other end. What
the system calls return is an input. `memcpy` is a parameter, since the code also
calls it for ranges that overlap.
-/

namespace Repeater

open Transition

/-- `sizeof(viewerBuf)` and `sizeof(serverBuf)`. -/
def bufSize : Nat := 1024

/-- The error of a connection that its peer has reset. -/
def ECONNRESET : Int32 := 104

/-- A call of `send` takes some of the bytes, fails, or ends the process: the
repeater has no handler for `SIGPIPE`. -/
inductive Send where
  | taken (count : Nat)
  | failed
  | sigpipe
deriving DecidableEq

/-- What the system calls of one turn return. `select` tells whether the server
and the viewer can be read, and `recv` returns some bytes, none when the peer has
closed, or an `errno`. -/
structure Turn where
  select : Option (Bool × Bool)
  recvServer : Except Int32 (List UInt8)
  recvViewer : Except Int32 (List UInt8)
  sendServer : Send
  sendViewer : Send

/-- One direction: its buffer, and all bytes received and sent so far. -/
structure Direction where
  buffer : Buffer UInt8 bufSize
  received : List UInt8
  sent : List UInt8

/-- The two directions of a session. -/
structure Relay where
  fromServer : Direction
  fromViewer : Direction

/-- How the child process ends. -/
inductive Exit where
  | returned (code : Int32)
  | killed
deriving DecidableEq

/-- `WEXITSTATUS`; the status of a process that a signal killed holds the signal
in its other bits. -/
def Exit.status : Exit → Int32
  | .returned code => code
  | .killed => 0

/-- The relay goes on until an exit is set. -/
structure Progress where
  relay : Relay
  exit : Option Exit

/-- The rest of a turn takes place unless the process has ended. -/
def Progress.next (progress : Progress) (rest : Relay → Progress) : Progress :=
  match progress.exit with
  | none => rest progress.relay
  | some _ => progress

/-! ### The loop -/

/-- `recv` puts at most as many bytes behind the others as there is room for. -/
def Direction.receive (direction : Direction) (offered : List UInt8) : Direction :=
  { direction with
    buffer := direction.buffer.fill offered
    received := direction.received ++ offered.take direction.buffer.room }

/-- server => viewer: a reset is only logged. -/
def readServer (incoming : Except Int32 (List UInt8)) (relay : Relay) : Progress :=
  match incoming with
  | .error errno =>
      if errno ≠ ECONNRESET then ⟨relay, some (.returned 5)⟩ else ⟨relay, none⟩
  | .ok offered =>
      if offered = [] then ⟨relay, some (.returned 2)⟩
      else ⟨{ relay with fromServer := relay.fromServer.receive offered }, none⟩

/-- viewer => server -/
def readViewer (incoming : Except Int32 (List UInt8)) (relay : Relay) : Progress :=
  match incoming with
  | .error _ => ⟨relay, some (.returned 4)⟩
  | .ok offered =>
      if offered = [] then ⟨relay, some (.returned 3)⟩
      else ⟨{ relay with fromViewer := relay.fromViewer.receive offered }, none⟩

/-- The bytes `send` has taken, and what is left of the buffer. -/
def Direction.send (direction : Direction) (len : Nat) (buffer : Buffer UInt8 bufSize) :
    Direction :=
  { direction with
    buffer := buffer
    sent := direction.sent ++ direction.buffer.held.take len }

/-- Flush of `viewerBuf`, once `send` has taken `len` bytes. -/
def Direction.flushToServer (memcpy : Memcpy UInt8) (direction : Direction) (len : Nat) :
    Direction :=
  if 0 < len then
    direction.send len
      (if 0 < direction.buffer.filled - len then direction.buffer.moveDown memcpy len
      else direction.buffer.shorten len)
  else direction

/-- Flush of `serverBuf`: the rest is moved only when it is longer than what was
sent. -/
def Direction.flushToViewer (memcpy : Memcpy UInt8) (direction : Direction) (len : Nat) :
    Direction :=
  direction.send len
    (if len < direction.buffer.filled - len then direction.buffer.moveDown memcpy len
    else direction.buffer.shorten len)

/-- `send` is called when the buffer holds bytes, and takes at most those. -/
def sendServer (memcpy : Memcpy UInt8) (send : Send) (relay : Relay) : Progress :=
  if 0 < relay.fromViewer.buffer.filled then
    match send with
    | .taken count =>
        ⟨{ relay with
            fromViewer := relay.fromViewer.flushToServer memcpy
              (min count relay.fromViewer.buffer.filled) }, none⟩
    | .failed => ⟨relay, none⟩
    | .sigpipe => ⟨relay, some .killed⟩
  else ⟨relay, none⟩

/-- The same for the viewer; the rest is moved only when it is longer than what was sent. -/
def sendViewer (memcpy : Memcpy UInt8) (send : Send) (relay : Relay) : Progress :=
  if 0 < relay.fromServer.buffer.filled then
    match send with
    | .taken count =>
        ⟨{ relay with
            fromServer := relay.fromServer.flushToViewer memcpy
              (min count relay.fromServer.buffer.filled) }, none⟩
    | .failed => ⟨relay, none⟩
    | .sigpipe => ⟨relay, some .killed⟩
  else ⟨relay, none⟩

/-- The first half of a turn: `select` watches the ends whose buffer has room. -/
def readBoth (turn : Turn) (relay : Relay) : Progress :=
  match turn.select with
  | none => ⟨relay, some (.returned 1)⟩
  | some ready =>
      Progress.next
        (if ready.1 ∧ relay.fromServer.buffer.filled < bufSize then
          readServer turn.recvServer relay else ⟨relay, none⟩)
        fun relay =>
          if ready.2 ∧ relay.fromViewer.buffer.filled < bufSize then
            readViewer turn.recvViewer relay else ⟨relay, none⟩

/-- One turn of the `while` loop. -/
def doRepeater (memcpy : Memcpy UInt8) (progress : Progress) (turn : Turn) : Progress :=
  ((progress.next (readBoth turn)).next (sendServer memcpy turn.sendServer)).next
    (sendViewer memcpy turn.sendViewer)

/-- Both buffers are empty; their cells hold anything. -/
def Direction.start (cells : List UInt8) (length_cells : cells.length = bufSize) : Direction where
  buffer := ⟨cells, 0, length_cells, Nat.zero_le _⟩
  received := []
  sent := []

/-- A new relay has received nothing, whatever its buffers hold. -/
def Progress.start (serverBuf viewerBuf : { cells : List UInt8 // cells.length = bufSize }) :
    Progress where
  relay :=
    { fromServer := .start serverBuf.1 serverBuf.2
      fromViewer := .start viewerBuf.1 viewerBuf.2 }
  exit := none

/-! ### One direction -/

/-- The bytes received are the bytes sent and then the bytes that wait. -/
def Direction.Intact (direction : Direction) : Prop :=
  direction.received = direction.sent ++ direction.buffer.held

/-- The counts agree, whatever the bytes are. -/
def Direction.Counted (direction : Direction) : Prop :=
  direction.received.length = direction.sent.length + direction.buffer.filled

/-- When the rest is not moved, the bytes that stay are those not sent. -/
def Direction.KeepsRest (direction : Direction) (len : Nat) : Prop :=
  len < direction.buffer.filled - len ∨
    direction.buffer.held.take (direction.buffer.filled - len) = direction.buffer.held.drop len

namespace Direction

variable {memcpy : Memcpy UInt8} {direction : Direction} {len : Nat}

theorem Intact.receive (intact : direction.Intact) (offered : List UInt8) :
    (direction.receive offered).Intact := by
  change direction.received ++ _ = direction.sent ++ (direction.buffer.fill offered).held
  rw [intact, Buffer.held_fill, List.append_assoc]

/-- Reading adds as many bytes to the buffer as are received. -/
theorem Counted.receive (counted : direction.Counted) (offered : List UInt8) :
    (direction.receive offered).Counted := by
  unfold Counted at counted
  change (direction.received ++ _).length = direction.sent.length + (direction.buffer.filled + _)
  rw [List.length_append, counted, Nat.add_assoc]

/-- The stream stays intact when the bytes not sent are the ones that wait. -/
theorem intact_send_iff {buffer : Buffer UInt8 bufSize} (intact : direction.Intact) :
    (direction.send len buffer).Intact ↔ buffer.held = direction.buffer.held.drop len := by
  have split : direction.received =
      direction.sent ++ (direction.buffer.held.take len ++ direction.buffer.held.drop len) := by
    rw [List.take_append_drop]
    exact intact
  change direction.received = direction.sent ++ direction.buffer.held.take len ++ buffer.held ↔ _
  rw [split, List.append_assoc, List.append_right_inj, List.append_right_inj]
  exact eq_comm

/-- Sending takes as many bytes from the buffer as are sent. -/
theorem counted_send {buffer : Buffer UInt8 bufSize} (inside : len ≤ direction.buffer.filled)
    (shorter : buffer.filled = direction.buffer.filled - len) (counted : direction.Counted) :
    (direction.send len buffer).Counted := by
  have taken : (direction.buffer.held.take len).length = len :=
    List.length_take_of_le (by rw [Buffer.length_held]; exact inside)
  unfold Counted at counted ⊢
  change direction.received.length =
    (direction.sent ++ direction.buffer.held.take len).length + buffer.filled
  rw [counted, List.length_append, taken, shorter]
  omega

/-- Whether the rest is moved makes no difference to the number of bytes left. -/
theorem filled_ite {moves : Prop} [Decidable moves] :
    (if moves then direction.buffer.moveDown memcpy len
      else direction.buffer.shorten len).filled = direction.buffer.filled - len := by
  split
  · rfl
  · rfl

/-- The copy of the rest of `viewerBuf` is exact, if there is a rest. -/
def MovesRest (memcpy : Memcpy UInt8) (direction : Direction) (len : Nat) : Prop :=
  0 < len → 0 < direction.buffer.filled - len →
    memcpy.Exact direction.buffer.cells 0 len (direction.buffer.filled - len)

/-- A copy that moves ranges down moves the rest. -/
theorem movesRest_of_movesDown (movesDown : memcpy.MovesDown)
    (inside : len ≤ direction.buffer.filled) : direction.MovesRest memcpy len := by
  intro _ _
  have enough := direction.buffer.filled_le_length
  exact movesDown _ _ _ _ (by omega) (Nat.zero_le _)

/-- A standard copy moves the rest when it is no longer than what was sent. -/
theorem movesRest_of_standard (standard : memcpy.Standard)
    (inside : len ≤ direction.buffer.filled) (half : direction.buffer.filled - len ≤ len) :
    direction.MovesRest memcpy len := by
  intro _ _
  have enough := direction.buffer.filled_le_length
  exact standard _ _ _ _ (by omega) (by omega) (Or.inl (by omega))

/-- The server's stream stays intact when the rest is moved. -/
theorem Intact.flushToServer (intact : direction.Intact) (inside : len ≤ direction.buffer.filled)
    (moves : direction.MovesRest memcpy len) : (direction.flushToServer memcpy len).Intact := by
  unfold Direction.flushToServer
  split
  · next some =>
      apply (intact_send_iff intact).mpr
      split
      · next rest => exact Buffer.held_moveDown inside (moves some rest)
      · next all =>
          rw [Buffer.held_shorten, List.drop_of_length_le (by rw [Buffer.length_held]; omega),
            Nat.eq_zero_of_not_pos all, List.take_zero]
  · exact intact

/-- The viewer's stream stays intact exactly when the bytes that stay are those not sent. -/
theorem intact_flushToViewer_iff (movesDown : memcpy.MovesDown) (intact : direction.Intact)
    (inside : len ≤ direction.buffer.filled) :
    (direction.flushToViewer memcpy len).Intact ↔ direction.KeepsRest len := by
  have enough := direction.buffer.filled_le_length
  refine (intact_send_iff intact).trans ?_
  split
  · next moved =>
      refine iff_of_true (Buffer.held_moveDown inside ?_) (Or.inl moved)
      exact movesDown _ _ _ _ (by omega) (Nat.zero_le _)
  · next stays =>
      rw [Buffer.held_shorten]
      exact (or_iff_right stays).symm

/-- A send to the server keeps the count, whether the rest is moved or not. -/
theorem Counted.flushToServer (counted : direction.Counted)
    (inside : len ≤ direction.buffer.filled) :
    (direction.flushToServer memcpy len).Counted := by
  unfold Direction.flushToServer
  split
  · exact counted_send inside filled_ite counted
  · exact counted

theorem Counted.flushToViewer (counted : direction.Counted)
    (inside : len ≤ direction.buffer.filled) :
    (direction.flushToViewer memcpy len).Counted :=
  counted_send inside filled_ite counted

end Direction

/-! ### One turn -/

section OneTurn

variable {memcpy : Memcpy UInt8} {progress : Progress} {relay : Relay} {turn : Turn} {send : Send}

/-- What holds of the relay, and is kept by the rest of the turn, holds after it. -/
theorem Progress.next_invariant (holds : Relay → Prop) {rest : Relay → Progress}
    (held : holds progress.relay) (kept : ∀ relay, holds relay → holds (rest relay).relay) :
    holds (progress.next rest).relay := by
  unfold Progress.next
  split
  · exact kept progress.relay held
  · exact held

/-- Reading changes a direction only by what it receives. -/
theorem readBoth_invariant (server viewer : Direction → Prop)
    (serverReceives : ∀ direction offered, server direction → server (direction.receive offered))
    (viewerReceives : ∀ direction offered, viewer direction → viewer (direction.receive offered))
    (held : server relay.fromServer ∧ viewer relay.fromViewer) :
    server (readBoth turn relay).relay.fromServer ∧
      viewer (readBoth turn relay).relay.fromViewer := by
  unfold readBoth
  split
  · exact held
  · refine Progress.next_invariant
      (fun relay => server relay.fromServer ∧ viewer relay.fromViewer) ?_ ?_
    · split
      · unfold readServer
        split
        · split
          · exact held
          · exact held
        · split
          · exact held
          · exact ⟨serverReceives _ _ held.1, held.2⟩
      · exact held
    · intro relay held
      split
      · unfold readViewer
        split
        · exact held
        · split
          · exact held
          · exact ⟨held.1, viewerReceives _ _ held.2⟩
      · exact held

/-- A send to the server leaves what goes to the viewer. -/
theorem sendServer_fromServer :
    (sendServer memcpy send relay).relay.fromServer = relay.fromServer := by
  unfold sendServer
  split
  · split <;> rfl
  · rfl

/-- A send to the viewer leaves what goes to the server. -/
theorem sendViewer_fromViewer :
    (sendViewer memcpy send relay).relay.fromViewer = relay.fromViewer := by
  unfold sendViewer
  split
  · split <;> rfl
  · rfl

/-- `send` takes `len` of the bytes that wait. -/
def Direction.Takes (direction : Direction) (send : Send) (len : Nat) : Prop :=
  0 < direction.buffer.filled ∧ ∃ count, send = .taken count ∧
    len = min count direction.buffer.filled

theorem Direction.Takes.inside {direction : Direction} {len : Nat}
    (takes : direction.Takes send len) : len ≤ direction.buffer.filled := by
  obtain ⟨-, count, -, rfl⟩ := takes
  exact Nat.min_le_right _ _

/-- What goes to the server changes only when `send` takes bytes. -/
theorem sendServer_fromViewer {holds : Direction → Prop} (held : holds relay.fromViewer)
    (sends : ∀ len, relay.fromViewer.Takes send len →
      holds (relay.fromViewer.flushToServer memcpy len)) :
    holds (sendServer memcpy send relay).relay.fromViewer := by
  unfold sendServer
  split
  · next some =>
      split
      · next count => exact sends _ ⟨some, count, rfl, rfl⟩
      · exact held
      · exact held
  · exact held

/-- What goes to the viewer changes only when `send` takes bytes. -/
theorem sendViewer_fromServer {holds : Direction → Prop} (held : holds relay.fromServer)
    (sends : ∀ len, relay.fromServer.Takes send len →
      holds (relay.fromServer.flushToViewer memcpy len)) :
    holds (sendViewer memcpy send relay).relay.fromServer := by
  unfold sendViewer
  split
  · next some =>
      split
      · next count => exact sends _ ⟨some, count, rfl, rfl⟩
      · exact held
      · exact held
  · exact held

/-- A send to the viewer keeps its stream intact exactly when it leaves the bytes not sent. -/
theorem sendViewer_intact_iff (movesDown : memcpy.MovesDown)
    (intact : relay.fromServer.Intact) :
    (sendViewer memcpy send relay).relay.fromServer.Intact ↔
      ∀ len, relay.fromServer.Takes send len → relay.fromServer.KeepsRest len := by
  unfold sendViewer
  split
  · next some =>
      split
      · next count =>
          refine (Direction.intact_flushToViewer_iff movesDown intact
            (Nat.min_le_right _ _)).trans ⟨?_, fun keeps => keeps _ ⟨some, count, rfl, rfl⟩⟩
          rintro keeps len ⟨-, taken, same, rfl⟩
          cases same
          exact keeps
      · exact iff_of_true intact (by rintro len ⟨-, count, same, -⟩; cases same)
      · exact iff_of_true intact (by rintro len ⟨-, count, same, -⟩; cases same)
  · next none => exact iff_of_true intact fun len takes => (none takes.1).elim

/-- The states in which a turn sends to the server and to the viewer. -/
def beforeServer (progress : Progress) (turn : Turn) : Progress :=
  progress.next (readBoth turn)

/-- The turn up to the send to the viewer. -/
def beforeViewer (memcpy : Memcpy UInt8) (progress : Progress) (turn : Turn) : Progress :=
  (beforeServer progress turn).next (sendServer memcpy turn.sendServer)

/-- At least half of the bytes for the server are sent at once. -/
def TakesHalf (progress : Progress) (turn : Turn) : Prop :=
  ∀ len, (beforeServer progress turn).relay.fromViewer.Takes turn.sendServer len →
    (beforeServer progress turn).relay.fromViewer.buffer.filled - len ≤ len

/-- The send to the viewer, if the turn gets to it, leaves the bytes not sent. -/
def KeepsRest (memcpy : Memcpy UInt8) (progress : Progress) (turn : Turn) : Prop :=
  (beforeViewer memcpy progress turn).exit = none →
    ∀ len, (beforeViewer memcpy progress turn).relay.fromServer.Takes turn.sendViewer len →
      (beforeViewer memcpy progress turn).relay.fromServer.KeepsRest len

/-- Up to the send to the server the directions have only received. -/
theorem beforeServer_invariant (server viewer : Direction → Prop)
    (serverReceives : ∀ direction offered, server direction → server (direction.receive offered))
    (viewerReceives : ∀ direction offered, viewer direction → viewer (direction.receive offered))
    (held : server progress.relay.fromServer ∧ viewer progress.relay.fromViewer) :
    server (beforeServer progress turn).relay.fromServer ∧
      viewer (beforeServer progress turn).relay.fromViewer :=
  Progress.next_invariant (fun relay => server relay.fromServer ∧ viewer relay.fromViewer) held
    fun _ => readBoth_invariant server viewer serverReceives viewerReceives

/-- A turn keeps the server's stream intact when its send moves the rest. -/
theorem doRepeater_fromViewer_intact (intact : progress.relay.fromViewer.Intact)
    (moves : ∀ len, (beforeServer progress turn).relay.fromViewer.Takes turn.sendServer len →
      (beforeServer progress turn).relay.fromViewer.MovesRest memcpy len) :
    (doRepeater memcpy progress turn).relay.fromViewer.Intact := by
  have read : (beforeServer progress turn).relay.fromViewer.Intact :=
    (beforeServer_invariant (fun _ => True) Direction.Intact (fun _ _ _ => trivial)
      (fun _ offered intact => intact.receive offered) ⟨trivial, intact⟩).2
  have sent : (beforeViewer memcpy progress turn).relay.fromViewer.Intact := by
    unfold beforeViewer Progress.next
    split
    · exact sendServer_fromViewer read fun len takes =>
        read.flushToServer takes.inside (moves len takes)
    · exact read
  refine Progress.next_invariant (fun relay => relay.fromViewer.Intact) sent ?_
  intro relay intact
  rw [sendViewer_fromViewer]
  exact intact

/-- A turn keeps the count of both directions. -/
theorem doRepeater_counted (counted : progress.relay.fromServer.Counted ∧
    progress.relay.fromViewer.Counted) :
    (doRepeater memcpy progress turn).relay.fromServer.Counted ∧
      (doRepeater memcpy progress turn).relay.fromViewer.Counted := by
  have read : (beforeServer progress turn).relay.fromServer.Counted ∧
      (beforeServer progress turn).relay.fromViewer.Counted :=
    beforeServer_invariant _ _ (fun _ offered counted => counted.receive offered)
      (fun _ offered counted => counted.receive offered) counted
  let holds (relay : Relay) : Prop := relay.fromServer.Counted ∧ relay.fromViewer.Counted
  refine Progress.next_invariant holds (Progress.next_invariant holds read ?_) ?_
  · rintro relay ⟨server, viewer⟩
    refine ⟨?_, sendServer_fromViewer viewer fun len takes => viewer.flushToServer takes.inside⟩
    rw [sendServer_fromServer]
    exact server
  · rintro relay ⟨server, viewer⟩
    refine ⟨sendViewer_fromServer server fun len takes => server.flushToViewer takes.inside, ?_⟩
    rw [sendViewer_fromViewer]
    exact viewer

/-- A turn keeps the viewer's stream intact exactly when its send leaves the bytes not sent. -/
theorem doRepeater_fromServer_intact_iff (movesDown : memcpy.MovesDown)
    (intact : progress.relay.fromServer.Intact) :
    (doRepeater memcpy progress turn).relay.fromServer.Intact ↔
      KeepsRest memcpy progress turn := by
  have read : (beforeServer progress turn).relay.fromServer.Intact :=
    (beforeServer_invariant Direction.Intact (fun _ => True)
      (fun _ offered intact => intact.receive offered) (fun _ _ _ => trivial)
      ⟨intact, trivial⟩).1
  have before : (beforeViewer memcpy progress turn).relay.fromServer.Intact := by
    refine Progress.next_invariant (fun relay => relay.fromServer.Intact) read ?_
    intro relay intact
    rw [sendServer_fromServer]
    exact intact
  change ((beforeViewer memcpy progress turn).next _).relay.fromServer.Intact ↔ _
  unfold KeepsRest Progress.next
  split
  · next goesOn =>
      rw [forall_prop_of_true goesOn]
      exact sendViewer_intact_iff movesDown before
  · next ended =>
      refine iff_of_true before fun goesOn => ?_
      rw [ended] at goesOn
      cases goesOn

end OneTurn

/-! ### The whole session -/

/-- A buffer of zeros. -/
def zeros : { cells : List UInt8 // cells.length = bufSize } :=
  ⟨List.replicate bufSize 0, List.length_replicate⟩

/-- Both ends send three bytes, and `send` takes two of each. -/
def twoOfThree : Turn where
  select := some (true, true)
  recvServer := .ok [1, 2, 3]
  recvViewer := .ok [4, 5, 6]
  sendServer := .taken 2
  sendViewer := .taken 2

section Session

variable {memcpy : Memcpy UInt8} {turns : List Turn}
  (serverBuf viewerBuf : { cells : List UInt8 // cells.length = bufSize })

/-- The server is sent exactly the bytes the viewer has sent, the last ones still
waiting in the buffer, when the copy of overlapping ranges works or is never
needed. -/
theorem server_stream (copies : memcpy.MovesDown ∨ memcpy.Standard ∧
      Along (doRepeater memcpy) TakesHalf (.start serverBuf viewerBuf) turns) :
    (run (doRepeater memcpy) (.start serverBuf viewerBuf) turns).relay.fromViewer.Intact := by
  have start : (Progress.start serverBuf viewerBuf).relay.fromViewer.Intact := rfl
  rcases copies with movesDown | ⟨standard, half⟩
  · have all : Along (doRepeater memcpy) (fun _ _ => True) (.start serverBuf viewerBuf) turns :=
      .of_forall fun _ _ _ => trivial
    refine all.run_invariant (fun progress => progress.relay.fromViewer.Intact) ?_ start
    intro progress turn _ intact
    exact doRepeater_fromViewer_intact intact fun len takes =>
      Direction.movesRest_of_movesDown movesDown takes.inside
  · refine half.run_invariant (fun progress => progress.relay.fromViewer.Intact) ?_ start
    intro progress turn half intact
    exact doRepeater_fromViewer_intact intact fun len takes =>
      Direction.movesRest_of_standard standard takes.inside (half len takes)

theorem server_stream_twoOfThree :
    (run (doRepeater Memcpy.loop) (.start zeros zeros)
      [twoOfThree, twoOfThree]).relay.fromViewer.Intact :=
  server_stream zeros zeros (Or.inl Memcpy.loop_movesDown)

/-- No byte is lost or made up in number, in either direction and whatever the
copies do. -/
theorem stream_counts :
    (run (doRepeater memcpy) (.start serverBuf viewerBuf) turns).relay.fromServer.Counted ∧
      (run (doRepeater memcpy) (.start serverBuf viewerBuf) turns).relay.fromViewer.Counted := by
  have all : Along (doRepeater memcpy) (fun _ _ => True) (.start serverBuf viewerBuf) turns :=
    .of_forall fun _ _ _ => trivial
  refine all.run_invariant (fun progress => progress.relay.fromServer.Counted ∧
    progress.relay.fromViewer.Counted) ?_ ⟨rfl, rfl⟩
  intro progress turn _ counted
  exact doRepeater_counted counted

/-- The viewer's stream stays intact exactly as long as each send to the viewer
leaves the bytes not sent: it takes all, or less than half, or the bytes happen to
agree. -/
theorem viewer_stream_iff (movesDown : memcpy.MovesDown) :
    Along (doRepeater memcpy)
        (fun progress turn => (doRepeater memcpy progress turn).relay.fromServer.Intact)
        (.start serverBuf viewerBuf) turns ↔
      Along (doRepeater memcpy) (KeepsRest memcpy) (.start serverBuf viewerBuf) turns :=
  along_property_iff (fun _ => True)
    (fun progress : Progress => progress.relay.fromServer.Intact)
    (fun _ _ _ => trivial)
    (fun _ _ _ intact => doRepeater_fromServer_intact_iff movesDown intact) trivial rfl

theorem viewer_stream_twoOfThree :
    Along (doRepeater Memcpy.loop)
        (fun progress turn => (doRepeater Memcpy.loop progress turn).relay.fromServer.Intact)
        (.start zeros zeros) [twoOfThree] ↔
      Along (doRepeater Memcpy.loop) (KeepsRest Memcpy.loop) (.start zeros zeros) [twoOfThree] :=
  viewer_stream_iff zeros zeros Memcpy.loop_movesDown

end Session

end Repeater
