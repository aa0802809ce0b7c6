import HookRelay.Proofs.PrintedLast
import HookRelay.Proofs.ResponseFrame

/-!
# What comes of relaying a request

A request is relayed in three steps, each of which is only taken if the one before it succeeded: a
connection is made, the request is taken whole, and the response is received.  There is one lemma
for each step with which it can end, about the answer that is given and about what the server has
received.

* `runSilently_of_not_connected`: no connection.
* `runSilently_of_not_sent`: the request is not taken whole.
* `written_exchange`, `run_of_sent`, `runSilently_of_sent`: a response, which counts as an answer if
  it is not empty.

`Hook.line` is what a hook prints of a response.  `Relay.served` is the smallest world in which all
three steps are taken.
-/

namespace HookRelay

namespace Relay

/-- A response counts as an answer if it is not empty. -/
def answer (response : Bytes) : Option Bytes :=
  if response = [] then none else some response

section Steps

variable {config : Config} {world : World} {connection : Connection} (buffer : Buffer)

/-- A connection that is made is to somebody who listens, and has the time limit of the settings. -/
theorem exists_listener_of_connect
    (connected : connect config world = .ok connection) :
    ∃ listener : Listener,
      connection =
        ⟨Source.ofScript listener.sends, Sink.ofScript listener.takes none,
          config.socketTimeout⟩ := by
  unfold connect at connected
  split at connected
  · contradiction
  · unfold World.connect at connected
    split_ifs at connected
    split at connected
    · contradiction
    · exact ⟨_, (Except.ok.inj connected).symm⟩

theorem written_of_connect
    (connected : connect config world = .ok connection) :
    connection.sink.written = [] := by
  obtain ⟨listener, rfl⟩ := exists_listener_of_connect connected
  rfl

theorem run_of_not_connected
    {error : RelayError}
    (failed : connect config world = .error error) :
    run config buffer world = ⟨.error error, buffer, world⟩ := by
  rw [run, failed]

/-- With a connection, the result and the buffer are those of the exchange. -/
theorem run_of_connected
    (connected : connect config world = .ok connection) :
    (run config buffer world).result = (Exchange.run connection buffer).result ∧
      (run config buffer world).buffer = (Exchange.run connection buffer).buffer ∧
      (run config buffer world).world.received =
        some (Exchange.run connection buffer).connection.sink.written := by
  unfold run
  rw [connected]
  dsimp only
  cases (Exchange.run connection buffer).result with
  | error error => exact ⟨rfl, rfl, rfl⟩
  | ok length => exact ⟨rfl, rfl, World.received_log _ _⟩

theorem runSilently_of_error
    {error : RelayError}
    (failed : (run config buffer world).result = .error error) :
    (runSilently config buffer world).result = none ∧
      (runSilently config buffer world).world.received =
        (run config buffer world).world.received := by
  simp [runSilently, failed]

/-- A relay that succeeds gives the response as its answer, if it is not empty. -/
theorem runSilently_of_ok
    {length : Nat}
    (relayed : (run config buffer world).result = .ok length) :
    (runSilently config buffer world).result = answer (run config buffer world).buffer.content ∧
      (runSilently config buffer world).world = (run config buffer world).world := by
  by_cases silent : (run config buffer world).buffer.content = []
  · simp [runSilently, relayed, Buffer.isEmpty, answer, silent]
  · simp [runSilently, relayed, Buffer.isEmpty, answer, silent]

theorem runSilently_of_not_connected
    {error : RelayError}
    (failed : connect config world = .error error) :
    (runSilently config buffer world).result = none ∧
      (runSilently config buffer world).world.received = world.received := by
  have relayed := run_of_not_connected buffer failed
  have silent := runSilently_of_error buffer (congrArg result relayed)
  rwa [relayed] at silent

theorem runSilently_of_not_sent
    {error : IoError} {sink : Sink}
    (connected : connect config world = .ok connection)
    (failed :
      connection.sink.writeEach [buffer.content, [Bytes.newline]] = (.error error, sink)) :
    (runSilently config buffer world).result = none ∧
      (runSilently config buffer world).world.received = some sink.written := by
  have relayed :
      run config buffer world =
        ⟨.error (.send error), buffer, { world with received := some sink.written }⟩ := by
    rw [run, connected]
    simp [Exchange.run_of_not_sent failed]
  have silent := runSilently_of_error buffer (congrArg result relayed)
  rwa [relayed] at silent

/-- Behind a request that is taken whole the server has received it, its line feed and nothing
else. -/
theorem written_exchange
    (connected : connect config world = .ok connection)
    (sent : (connection.sink.writeEach [buffer.content, [Bytes.newline]]).1 = .ok ()) :
    (Exchange.run connection buffer).connection.sink.written =
      buffer.content ++ [Bytes.newline] := by
  have whole := Sink.written_of_writeEach_ok sent
  rw [Exchange.sink_run]
  simpa [written_of_connect connected] using whole

/-- A request that is taken whole reaches the server with its line feed, and the response is left in
the buffer. -/
theorem run_of_sent
    (frame : buffer.capacity = Buffer.frameCapacity)
    (connected : connect config world = .ok connection)
    (sent : (connection.sink.writeEach [buffer.content, [Bytes.newline]]).1 = .ok ()) :
    (run config buffer world).result =
        .ok (Bytes.trimEnd (Exchange.received connection.source.script)).length ∧
      (run config buffer world).buffer.content =
        Bytes.trimEnd (Exchange.received connection.source.script) ∧
      (run config buffer world).world.received =
        some (buffer.content ++ [Bytes.newline]) := by
  obtain ⟨content, reported⟩ := Exchange.content_run connection buffer frame sent
  have taken := written_exchange buffer connected sent
  refine ⟨?_, ?_, ?_⟩
  · simp [run, connected, reported, content]
  · simp [run, connected, reported, content]
  · simp [run, connected, reported, taken]

theorem runSilently_of_sent
    (frame : buffer.capacity = Buffer.frameCapacity)
    (connected : connect config world = .ok connection)
    (sent : (connection.sink.writeEach [buffer.content, [Bytes.newline]]).1 = .ok ()) :
    (runSilently config buffer world).result =
        answer (Bytes.trimEnd (Exchange.received connection.source.script)) ∧
      (runSilently config buffer world).world.received =
        some (buffer.content ++ [Bytes.newline]) := by
  obtain ⟨relayed, content, received⟩ := run_of_sent buffer frame connected sent
  obtain ⟨result, after⟩ := runSilently_of_ok buffer relayed
  rw [result, after, content]
  exact ⟨rfl, received⟩

end Steps

/-- A home directory and nothing else is configured. -/
def home : Config :=
  { Config.default with home := some (Bytes.ofText "/h") }

/-- A world with nothing in it but the home directory and a server at the socket under it. -/
def served (listener : Listener) : World where
  tree :=
    (((Tree.empty.set [Bytes.ofText "h"] .directory).set
      [Places.directoryName, Bytes.ofText "h"] .directory).set
        [Bytes.ofText "hook.sock", Places.directoryName, Bytes.ofText "h"]
        (.socket (some listener)))
  working := []
  clock := ⟨0, 0, 0⟩
  process := 0
  journal := none
  received := none

theorem connect_served (listener : Listener) :
    connect home (served listener) =
      .ok ⟨Source.ofScript listener.sends, Sink.ofScript listener.takes none, 50⟩ := by
  rfl

end Relay

namespace Hook

/-- A response on a line, if there is one. -/
def line (response : Bytes) : Bytes :=
  if response = [] then [] else response ++ [Bytes.newline]

theorem flatten_pieces_answer (response : Bytes) :
    (pieces (Relay.answer response)).flatten = line response := by
  by_cases silent : response = [] <;> simp [Relay.answer, line, pieces, silent]

end Hook

end HookRelay
